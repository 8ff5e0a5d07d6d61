import ErdSql.Advice
import ErdSql.Cache
import ErdSql.Check
import ErdSql.Ddl.Generator
import ErdSql.Digest.Key
import ErdSql.Document.Parser
import ErdSql.Schema.Resolution

/-!
# Compilation

From the bytes of a document to a script and a list of diagnostics. Every stage works on what the one
before could make of the document, so an invalid document has a script too. Results can be kept in a
store under a key that is made from the document and the options.
-/

namespace ErdSql

/-- How a document is compiled. -/
structure CompileOptions where
  dialect : Dialect := .postgresql
  ifNotExists : Bool := false
  overlay : Overlay := Overlay.empty
  plugins : Plugin.Registry := Plugin.Registry.empty
  header : List String := []
  /-- Whether advice is added to the diagnostics. -/
  lint : Bool := false
  /-- Stands for the inputs outside the document, overlay and plugins, in the key of a result. -/
  fingerprint : String := ""

/-- The outcome of compiling a document. -/
structure Compilation where
  path : String
  schema : Schema
  /-- The script, unless a plugin failed. -/
  output : Option Ddl.Output
  diagnostics : List Diagnostic
  deriving Inhabited

namespace Compilation

/-- The error about malformed text. -/
def scanDiagnostic (path : String) (e : ScanError) : Diagnostic :=
  .make .error Diagnostic.lexical e.fault.message ⟨path, e.line, e.column⟩

/-- The error about a malformed statement. -/
def parseDiagnostic (path : String) (e : Document.ParseError) : Diagnostic :=
  .make .error Diagnostic.grammatical e.message ⟨path, e.line, e.column⟩

/-- The error about a plugin that failed to write its statement. -/
def generateDiagnostic (path : String) (e : Ddl.GenerateError) : Diagnostic :=
  .make .error Diagnostic.grammatical e.message ⟨path, 0, 0⟩

/-- The options of generation. -/
def generateOptions (o : CompileOptions) : Ddl.Options where
  dialect := o.dialect
  ifNotExists := o.ifNotExists
  overlay := o.overlay
  plugins := o.plugins
  header := Text.join "\n" o.header

/-- The document that bytes hold, with what is wrong with its text and with its statements. -/
def read (path : String) (src : List UInt8) (plugins : Plugin.Registry) :
    Document × List ScanError × List Document.ParseError :=
  let scan := Scan.ofBytes src
  let (document, errors) :=
    Document.ofTokens path ((Text.decode? src).getD []) plugins scan.tokens
  (document, scan.errors, errors)

/-- The schema of a document and all findings about it, in the order of the stages. -/
def analyse (path : String) (src : List UInt8) (o : CompileOptions) : Schema × List Diagnostic :=
  let (document, scanErrors, parseErrors) := read path src o.plugins
  let (schema, built) := Schema.ofDocument document
  (schema, scanErrors.map (scanDiagnostic path) ++ parseErrors.map (parseDiagnostic path) ++ built ++
    Check.run schema ++ o.overlay.check schema ++ (if o.lint then Advice.run schema else []))

/-- Compiles a document. -/
def run (path : String) (src : List UInt8) (o : CompileOptions) : Compilation :=
  let (schema, diagnostics) := analyse path src o
  match Ddl.generate (generateOptions o) schema with
  | .ok output => ⟨path, schema, some output, diagnostics⟩
  | .error e => ⟨path, schema, none, diagnostics ++ [generateDiagnostic path e]⟩

/-- The script, empty if there is none. -/
def sql (c : Compilation) : String :=
  (c.output.map Ddl.Output.sql).getD ""

/-- Whether there is a script. -/
def generated (c : Compilation) : Bool := c.output.isSome

/-- Whether no diagnostic is an error. -/
def valid (c : Compilation) : Bool := !Diagnostic.hasErrors c.diagnostics

/-- What is kept of a compilation. -/
def entry (c : Compilation) : Cache.Entry :=
  ⟨c.sql, c.diagnostics, c.generated, c.valid⟩

/-- The spelling of a flag in a key. -/
def flagText (b : Bool) : String := if b then "true" else "false"

/-- The parts that a key is made from: all that decides the result. -/
def keyParts (path : String) (src : List UInt8) (o : CompileOptions) : List (List UInt8) :=
  [Text.bytes path, src, Text.bytes o.dialect.name, Text.bytes (flagText o.ifNotExists),
    Text.bytes (flagText o.lint), Text.bytes (Text.join "\n" o.header),
    Text.bytes (Text.join "," o.plugins.keywords), Text.bytes o.fingerprint]

/-- The key under which the result is kept. -/
def key (hash : List UInt8 → List UInt8) (path : String) (src : List UInt8) (o : CompileOptions) :
    String :=
  Digest.key hash (keyParts path src o)

/-- A result that was found in a store or made anew. -/
inductive Answer where
  | found (entry : Cache.Entry)
  | made (compilation : Compilation)
  deriving Inhabited

/-- What an answer says, wherever it is from. -/
def Answer.entry : Answer → Cache.Entry
  | found e => e
  | made c => c.entry

/-- Whether an answer is from a store. -/
def Answer.isCached : Answer → Bool
  | found _ => true
  | made _ => false

/-- Looks for a result in the store, and compiles the document and keeps the result if there is
none. -/
def runWith (hash : List UInt8 → List UInt8) (store : Cache.Store) (path : String)
    (src : List UInt8) (o : CompileOptions) : Answer × Cache.Store :=
  let key := key hash path src o
  match store.get? key with
  | some entry => (.found entry, store)
  | none =>
    let c := run path src o
    (.made c, store.put key c.entry)

end Compilation

end ErdSql
