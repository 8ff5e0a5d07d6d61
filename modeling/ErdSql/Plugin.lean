import ErdSql.Span
import ErdSql.Text.Bytes
import ErdSql.Token.Scanner

/-!
# Plugins

A plugin adds a top-level statement to the language: a keyword, a reader for the text that follows
it and a writer of the SQL for it. A registry holds the handlers by upper-case keyword.
-/

namespace ErdSql.Plugin

/-- A plugin statement as written: its keyword in upper case, the text behind it, and its place. -/
structure Block where
  keyword : String
  body : String
  span : Span
  deriving DecidableEq, Inhabited

/-- How one kind of plugin statement is read and written. What reading gives is handed to writing. -/
structure Handler where
  parse : Block → Except String String
  emit : Block → String → Except String String

/-- Why a handler was not registered. -/
inductive RegisterError where
  | invalidKeyword (given : String)
  | reservedKeyword (key : String)
  | missingHandler (key : String)
  | duplicateKeyword (key : String)
  deriving DecidableEq

/-- The wording of a refusal. -/
def RegisterError.message : RegisterError → String
  | invalidKeyword given => "plugin: invalid keyword " ++ Text.quoted given
  | reservedKeyword key => "plugin: keyword is reserved by the DSL: " ++ key
  | missingHandler key => "plugin: nil handler for " ++ key
  | duplicateKeyword key => "plugin: keyword already registered: " ++ key

/-- Handlers by upper-case keyword, in order of registration. -/
structure Registry where
  handlers : List (String × Handler)

namespace Registry

/-- The registry without handlers. -/
def empty : Registry := ⟨[]⟩

instance : Inhabited Registry := ⟨empty⟩

/-- The handler of a keyword in any spelling. -/
def lookup (r : Registry) (keyword : String) : Option Handler :=
  r.handlers.lookup (Text.upper keyword)

/-- The registered keywords in byte order. -/
def keywords (r : Registry) : List String :=
  Text.sortTexts (r.handlers.map (·.1))

/-- Whether a text is a name: a letter or underscore, then letters, underscores and digits. -/
def isValidKeyword (key : String) : Bool :=
  match key.toList with
  | [] => false
  | c :: cs => Scan.isNameStart c && cs.all Scan.isNamePart

/-- The registry with one more handler. A keyword must be a name, not reserved and not taken. -/
def register (r : Registry) (keyword : String) (handler : Option Handler) :
    Except RegisterError Registry :=
  let key := Text.upper (Text.trim keyword)
  if !isValidKeyword key then .error (.invalidKeyword keyword)
  else if (Keyword.ofText? key).isSome then .error (.reservedKeyword key)
  else match handler with
    | none => .error (.missingHandler key)
    | some h =>
      if (r.handlers.lookup key).isSome then .error (.duplicateKeyword key)
      else .ok ⟨r.handlers ++ [(key, h)]⟩

end Registry

end ErdSql.Plugin
