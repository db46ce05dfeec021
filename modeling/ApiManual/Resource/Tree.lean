import ApiManual.Resource.Outline

/-!
# The tree of a resource's fields

`Fields.ofEvents` nests the fields of an outline: a list or an object that opens a scope holds what
follows up to its close. A close with nothing open is passed over, and a name that comes again in one
scope replaces the earlier field in its place.
-/

namespace ApiManual

/-- A field whose scope is open, and the fields read before it in the scope around it. -/
structure OpenField where
  before : Fields
  name : String
  field : Field
  line : Int
  deriving Repr

/-- Nest events below open fields, the innermost first; `here` are the fields of the current scope. -/
def nest (here : Fields) (stack : List OpenField) : List Event → Except Defect Fields
  | [] => match stack with
    | [] => .ok here
    | _ => .error (.scopesOpen (stack.reverse.map fun o => (o.name, o.line)))
  | .close _ :: events => match stack with
    | [] => nest here [] events
    | o :: stack => nest (o.before.set o.name (o.field.withChildren here)) stack events
  | .field name field line opens :: events =>
    if opens && field.type.isStructured then
      nest [] ({ before := here, name, field, line } :: stack) events
    else nest (here.set name field) stack events

def Fields.ofEvents (events : List Event) : Except Defect Fields := nest [] [] events

/-- The fields that the comments of a method declare. -/
def Fields.ofLines (lines : List String) (bound : Option Int := none) : Except Defect Fields := do
  Fields.ofEvents (← outline lines bound)

end ApiManual
