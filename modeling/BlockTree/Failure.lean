import BlockTree.Value

/-! Why an operation fails: a cause for each kind of mistake, its wording, and the category that a
caller may catch. -/
namespace BlockTree

/-- Kinds of failure that a substitution or a pipeline can raise on its own account. -/
inductive Raised
  | value | key | runtime | type
deriving DecidableEq, Repr

inductive DefinitionFault
  | notMapping
  | noContext
  | unknownModel (given : Value)
  | attributes
  | subs
  | source
deriving Repr

inductive NodeKind
  | plain | block | document
deriving DecidableEq, Repr

inductive Failure
  /- values of the wrong kind -/
  | notIterable (kind : String)
  | noLength (kind : String)
  | notJoinable
  | joinItem (index : Nat) (kind : String)
  | notPair (index : Nat)
  | pairLength (index length : Nat)
  | unhashable (kind : String)
  | noMember (kind name : String)
  | noKey (key : Value)
  /- models, options and trees -/
  | unknownModel (form : String)
  | notCallable (name : String)
  | fixedModel (node : NodeKind)
  | noOption (name : String)
  | strayOption (name : String)
  | emptyPop
  | popArguments
  | farPlace
  | endless
  /- definitions -/
  | definition (path : List Nat) (fault : DefinitionFault)
  | notDefinition (file : String)
  /- modules of substitutions -/
  | noModule (name : String)
  | notPackage (name parent : String)
  | relativeModule (name : String)
  | unnamedModule
  | noSubstitutions (name : String)
  /- JSON, YAML and their bytes -/
  | json
  | yaml
  | encoding
  | keyNotText
  | keyKind (kind : String)
  | wideInteger
  | notEncodable (kind : String)
  | noForm (kind : String)
  | deepJson
  | circular
  | ragged
  | calendar (fault : CalendarFault)
  | badInteger (base : Nat) (text : String)
  | badFloat (text : String)
  | emptyNumber
  | longNumeral (digits : Nat)
  | longInteger
  | hugeFloat
  | notTimestamp
  | notText
  | codePoint
  | hugeCode
  /- files -/
  | noFile (path : String)
  | notDirectory (path : String)
  | isDirectory (path : String)
  | longName (path : String)
  /- raised by a substitution or a pipeline -/
  | raised (kind : Raised) (text : String)
deriving Repr

/-- What a caller can tell apart; the first five count as faults of a value. -/
inductive Category
  | value | definition | json | encoding
  | yaml | type | key | member | index | overflow | runtime | endless | plugin
  | noFile | notDirectory | isDirectory | disk
deriving DecidableEq, Repr

def Category.isValue : Category → Bool
  | .value | .definition | .json | .encoding => true
  | _ => false

def CalendarFault.message : CalendarFault → String
  | .year y => "year " ++ Decimal.natText y ++ " is out of range"
  | .month => "month must be in 1..12"
  | .day => "day is out of range for month"
  | .hour => "hour must be in 0..23"
  | .minute => "minute must be in 0..59"
  | .second => "second must be in 0..59"
  | .offset o => "offset must be a timedelta strictly between -timedelta(hours=24) and " ++
      "timedelta(hours=24), not " ++ reprSpan o ++ "."
where
  reprSpan (o : Int) : String := DateTime.spanLiteral o

def pathText (path : List Nat) : String :=
  ".".intercalate (path.map fun i => "blocks[" ++ Decimal.natText i ++ "]")

def DefinitionFault.message : DefinitionFault → String
  | .notMapping => "block definition must be a mapping"
  | .noContext => "missing block context"
  | .unknownModel v => "unknown content model " ++ v.literal
  | .attributes => "attributes must be a mapping"
  | .subs => "subs must be a name or a list of names"
  | .source => "source must be a string or a list of lines"

def NodeKind.name : NodeKind → String
  | .plain => "AbstractBlock"
  | .block => "Block"
  | .document => "Document"

namespace Failure

def category : Failure → Category
  | .notIterable _ | .noLength _ | .notJoinable | .joinItem .. | .notPair _ | .unhashable _
  | .notCallable _ | .strayOption _ | .relativeModule _ | .keyNotText | .keyKind _ | .wideInteger
  | .notEncodable _ | .noForm _ | .deepJson | .ragged | .notText | .popArguments => .type
  | .pairLength .. | .unknownModel _ | .unnamedModule | .calendar _ | .badInteger .. | .badFloat _
  | .codePoint | .longNumeral _ | .longInteger | .circular => .value
  | .hugeCode | .hugeFloat | .farPlace => .overflow
  | .noMember .. | .fixedModel _ | .noOption _ | .noSubstitutions _ | .notTimestamp => .member
  | .noKey _ => .key
  | .emptyPop | .emptyNumber => .index
  | .endless => .endless
  | .definition .. | .notDefinition _ => .definition
  | .noModule _ | .notPackage .. => .plugin
  | .json => .json
  | .yaml => .yaml
  | .encoding => .encoding
  | .noFile _ => .noFile
  | .notDirectory _ => .notDirectory
  | .isDirectory _ => .isDirectory
  | .longName _ => .disk
  | .raised .value _ => .value
  | .raised .key _ => .key
  | .raised .runtime _ => .runtime
  | .raised .type _ => .type

def digitLimit : String := "Exceeds the limit (4300 digits) for integer string conversion"

def digitAdvice : String := "; use sys.set_int_max_str_digits() to increase the limit"

/-- The wording of a failure; parsers leave theirs open. -/
def message : Failure → String
  | .notIterable kind => "'" ++ kind ++ "' object is not iterable"
  | .noLength kind => "object of type '" ++ kind ++ "' has no len()"
  | .notJoinable => "can only join an iterable"
  | .joinItem i kind =>
    "sequence item " ++ Decimal.natText i ++ ": expected str instance, " ++ kind ++ " found"
  | .notPair i =>
    "cannot convert dictionary update sequence element #" ++ Decimal.natText i ++ " to a sequence"
  | .pairLength i n =>
    "dictionary update sequence element #" ++ Decimal.natText i ++ " has length " ++
      Decimal.natText n ++ "; 2 is required"
  | .unhashable kind => "unhashable type: '" ++ kind ++ "'"
  | .noMember kind name => "'" ++ kind ++ "' object has no attribute '" ++ name ++ "'"
  | .noKey key => key.literal
  | .unknownModel form => Text.quote form ++ " is not a valid ContentModel"
  | .notCallable name => "Substitution " ++ Text.quote name ++ " is not callable"
  | .fixedModel node => "property 'content_model' of '" ++ node.name ++ "' object has no setter"
  | .noOption name => "'BlockOptions' object has no attribute '" ++ name ++ "'"
  | .strayOption name =>
    "BlockOptions.__init__() got an unexpected keyword argument '" ++ name ++ "'"
  | .emptyPop => "pop from empty list"
  | .popArguments => "pop expected at least 1 argument, got 0"
  | .farPlace => "Python int too large to convert to C ssize_t"
  | .endless => "maximum recursion depth exceeded"
  | .definition path fault => pathText path ++ ": " ++ fault.message
  | .notDefinition file => file ++ ": expected a mapping at the top level"
  | .noModule name => "No module named " ++ Text.quote name
  | .notPackage name parent =>
    "No module named " ++ Text.quote name ++ "; " ++ Text.quote parent ++ " is not a package"
  | .relativeModule name =>
    "the 'package' argument is required to perform a relative import for " ++ Text.quote name
  | .unnamedModule => "Empty module name"
  | .noSubstitutions name => "module '" ++ name ++ "' has no attribute 'SUBSTITUTIONS'"
  | .json | .yaml | .encoding => "<parser message>"
  | .keyNotText => "Dict key must be str"
  | .keyKind kind => "keys must be str, int, float, bool or None, not " ++ kind
  | .wideInteger => "Integer exceeds 64-bit range"
  | .notEncodable kind => "Object of type " ++ kind ++ " is not JSON serializable"
  | .noForm kind => "Type is not JSON serializable: " ++ kind
  | .deepJson => "Recursion limit reached"
  | .circular => "Circular reference detected"
  | .ragged => "str is not valid UTF-8: surrogates not allowed"
  | .calendar fault => fault.message
  | .badInteger base text =>
    "invalid literal for int() with base " ++ Decimal.natText base ++ ": " ++
      String.ofList ((Text.quote text).toList.take 200)
  | .badFloat text => "could not convert string to float: " ++ Text.quote text
  | .emptyNumber => "string index out of range"
  | .longNumeral digits =>
    digitLimit ++ ": value has " ++ Decimal.natText digits ++ " digits" ++ digitAdvice
  | .longInteger => digitLimit ++ digitAdvice
  | .hugeFloat => "int too large to convert to float"
  | .notTimestamp => "'NoneType' object has no attribute 'groupdict'"
  | .notText => "expected string or bytes-like object, got 'list'"
  | .codePoint => "chr() arg not in range(0x110000)"
  | .hugeCode => "Python int too large to convert to C int"
  | .noFile path => "[Errno 2] No such file or directory: " ++ Text.quote path
  | .notDirectory path => "[Errno 20] Not a directory: " ++ Text.quote path
  | .isDirectory path => "[Errno 21] Is a directory: " ++ Text.quote path
  | .longName path => "[Errno 36] File name too long: " ++ Text.quote path
  | .raised .key text => Text.quote text
  | .raised _ text => text

end Failure

end BlockTree
