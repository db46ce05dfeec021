import ApiManual.Json.Layout
import ApiManual.Sample.Request

/-!
# Code samples

One sample of a request in each language: a `curl` command, a `fetch` call and a `requests` call. A
language is found by its name, before which a path may hold nothing but `.` and empty steps.
-/

namespace ApiManual

inductive Language where
  | bash
  | javascript
  | python
  deriving DecidableEq, Repr, Inhabited

def Language.ofPath? : List String → Option Language
  | [] => none
  | [name] =>
    if name = "bash" then some .bash
    else if name = "javascript" then some .javascript
    else if name = "python" then some .python
    else none
  | step :: path => if step = "" ∨ step = "." then ofPath? path else none

def Language.ofName? (name : String) : Option Language :=
  Language.ofPath? ((Text.splitOn '/' name.toList).map String.ofList)

namespace SampleRequest

/-- A backslash, a line feed and four blanks: the next argument of a command. -/
def nextArgument : String := " \\\n    "

/-- Text that is written only where there are values. -/
def whenAny (values : Entries Json) (text : String) : String := if values.isEmpty then "" else text

def bash (r : SampleRequest) : String :=
  let address := if r.method = "GET" then "-G \"" ++ r.url else "\"" ++ r.fullUrl
  let headers := r.headers.map fun (name, value) => nextArgument ++ "-H \"" ++ name ++ ": " ++ value ++ "\""
  let query := if r.method = "GET" then
      r.query.map fun (name, v) => nextArgument ++ "--data-urlencode \"" ++ name ++ "=" ++ v.plain ++ "\""
    else []
  "curl -X " ++ r.method ++ " " ++ address ++ "\"" ++ String.join headers ++ String.join query ++
    whenAny r.body (nextArgument ++ "-d '" ++ (Json.obj r.body).compact ++ "'")

def javascript (r : SampleRequest) : String :=
  "const url = new URL(\"" ++ r.url ++ "\");\n" ++
  whenAny r.query ("\nconst params = " ++ (Json.obj r.query).indented 4 ++ ";\n" ++
    "Object.keys(params).forEach(key => url.searchParams.append(key, params[key]));\n") ++
  "\nconst headers = " ++ r.allHeaders.toJson.indented 4 ++ ";\n" ++
  whenAny r.body ("\nconst body = " ++ (Json.obj r.body).indented 4 ++ ";\n") ++
  "\nfetch(url, \x7b\n    method: \"" ++ r.method ++ "\",\n    headers: headers,\n" ++
  whenAny r.body "    body: JSON.stringify(body),\n" ++
  "\x7d)\n    .then(response => response.json())\n    .then(json => console.log(json));"

def python (r : SampleRequest) : String :=
  "import requests\n\nurl = \"" ++ r.url ++ "\"\nheaders = " ++ r.allHeaders.toJson.layout ++ "\n" ++
  whenAny r.query ("params = " ++ (Json.obj r.query).layout ++ "\n") ++
  whenAny r.body ("payload = " ++ (Json.obj r.body).layout ++ "\n") ++
  "\nresponse = requests.request(\"" ++ r.method ++ "\", url, headers=headers" ++
  whenAny r.query ", params=params" ++ whenAny r.body ", json=payload" ++ ")\nresponse.json()"

def render (r : SampleRequest) : Language → String
  | .bash => r.bash
  | .javascript => r.javascript
  | .python => r.python

end SampleRequest

/-- The sample of a route in the language of this name. -/
def codeSample (base language : String) (route : Route) : Except Failure String :=
  match Language.ofName? language with
  | none => .error (.unknownLanguage language)
  | some l => do return (← SampleRequest.ofRoute base route).render l

end ApiManual
