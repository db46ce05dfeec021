/-!
# Errors in YAML

An `Error` is what is wrong with a text. The first group are mistakes in its form; the texts of scalars
that their kind cannot read and characters beyond the last code point stand apart, as `Error.Unreadable`.
-/

namespace ApiManual.Yaml

/-- A scalar that has the form of its kind but no value, or an explicit kind that it does not fit. -/
inductive Unreadable where
  | boolean (text : String)
  | integer (text : String)
  | float (text : String)
  /-- A number without a character but underscores and a sign. -/
  | numberEmpty
  | timestamp (text : String)
  /-- A mapping in the place of a timestamp's text. -/
  | timestampMapping
  /-- A date or a time that does not exist. -/
  | noSuchTime (text : String)
  | codePoint (n : Nat)
  /-- A mapping that stands for its own default value. -/
  | endless
  deriving DecidableEq, Repr

inductive Error where
  | notReadable (c : Char)
  | strayCharacter (c : Char)
  /-- A key that has to be one, without a colon on its line. -/
  | keyUnfinished
  | entryMisplaced
  | keyMisplaced
  | valueMisplaced
  | bracketUnopened
  | directiveForm
  | anchorForm
  | tagForm
  | blockHeaderForm
  | escapeForm
  | quoteUnclosed
  | markInQuote
  | tokenUnexpected
  | aliasUndefined (name : String)
  | anchorRepeated (name : String)
  | handleUndefined (handle : String)
  | directiveRepeated
  | versionUnsupported (major : Nat)
  | severalDocuments
  | tagUnknown
  | kindMismatch
  | keyNotScalar
  | mergeForm
  | binaryForm
  | unreadable (u : Unreadable)
  deriving DecidableEq, Repr

end ApiManual.Yaml
