import ApiManual.Config.Check
import ApiManual.Route.Describe

/-!
# Routes given as settings

A route that has been described before can be read back from settings, and so can the fields of a
resource.
-/

namespace ApiManual

open Checked Checker

def valueType : Checker ValueType := fun setting => ValueType.ofName <$> text setting

def Param.check : Checker Param := record fun fields =>
  Param.mk <$> optional fields "type" .string valueType
    <*> optional fields "description" "" text
    <*> optional fields "required" false flag
    <*> optional fields "value" .null sendable

def ResponseExample.check : Checker ResponseExample := record fun fields =>
  ResponseExample.mk <$> optional fields "status_code" 200 integer <*> required fields "content" text

/-- A value that may be left out or null. -/
def presentValue : Checker (Option Json)
  | .null => .ok none
  | setting => some <$> sendable setting

/-! ## Fields -/

/-- The parts of a field but its children. -/
def fieldParts (fields : Entries Setting) : Checked (Option Fields → Option Fields → Field) :=
  Field.mk <$> required fields "type" valueType
    <*> optional fields "description" "" text
    <*> optional fields "required" false flag
    <*> optional fields "example" none presentValue
    <*> optional fields "enum" none (nullable (listOf text))

mutual

def Field.check : Setting → Checked Field
  | .table entries =>
    fieldParts (Setting.named entries) <*> fieldsUnder "items" entries <*>
      fieldsUnder "properties" entries
  | _ => problem .notRecord

/-- The fields that stand under a name, if they are given. -/
def fieldsUnder (name : String) : List (Setting × Setting) → Checked (Option Fields)
  | [] => .ok none
  | (.str other, value) :: entries =>
    if other = name then (optionalFields value).under name else fieldsUnder name entries
  | _ :: entries => fieldsUnder name entries

def optionalFields : Setting → Checked (Option Fields)
  | .null => .ok none
  | .table entries => some <$> fieldEntries entries
  | _ => problem .notTable

def fieldEntries : List (Setting × Setting) → Checked Fields
  | [] => .ok []
  | (key, value) :: entries =>
    let name := ((text key).under "[key]").under key.keyText
    (fun name field rest => (name, field) :: rest) <$> name <*> (Field.check value).under key.keyText <*>
      fieldEntries entries

end

def ResourceSchema.check : Checker ResourceSchema := record fun fields =>
  ResourceSchema.mk <$> required fields "name" text
    <*> optional fields "status_code" "200" text
    <*> optional fields "description" "" text
    <*> optional fields "properties" [] (tableOf Field.check)
    <*> optional fields "example" [] (tableOf sendable)

/-! ## Routes -/

def Params.checkFields (fields : Entries Setting) : Checked Params :=
  Params.mk <$> optional fields "path_parameters" [] (tableOf Param.check)
    <*> optional fields "query_parameters" [] (tableOf Param.check)
    <*> optional fields "body_parameters" [] (tableOf Param.check)

def Route.check : Checker Route := record fun fields =>
  Route.mk <$> required fields "id" text
    <*> required fields "group" text
    <*> required fields "title" text
    <*> optional fields "description" "" text
    <*> required fields "methods" (listOf text)
    <*> required fields "uri" text
    <*> optional fields "authenticated" false flag
    <*> optional fields "headers" [] (tableOf text)
    <*> Params.checkFields fields
    <*> optional fields "response" [] (listOf ResponseExample.check)
    <*> optional fields "show_response" false flag
    <*> optional fields "schemas" [] (listOf ResourceSchema.check)

end ApiManual
