import BlockTree.Yaml.Chars

/-! The tokens of a YAML text. Indentation shows as opening and closing tokens of its own. -/
namespace BlockTree.Yaml

inductive Directive
  | version (major : Nat)
  | handle (name target : String)
  | other
deriving Repr

inductive Token
  | streamEnd
  | directive (d : Directive)
  | documentStart
  | documentEnd
  | blockSequence
  | blockMapping
  | blockEnd
  | sequenceOpen
  | sequenceClose
  | mappingOpen
  | mappingClose
  | entry
  | comma
  | key
  | value
  | alias (name : String)
  | anchor (name : String)
  | tag (handle : Option String) (suffix : String)
  | scalar (text : String) (isPlain : Bool)
  /-- A scalar between double quotes, with halves in it. -/
  | ragged (text : Text.Ragged)
  /-- The text cannot be read any further. -/
  | broken (f : Failure)
deriving Repr

end BlockTree.Yaml
