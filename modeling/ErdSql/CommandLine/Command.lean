import ErdSql.CommandLine.Flag

/-!
# Commands

The commands of the program form a tree of two levels below the program itself.
-/

namespace ErdSql.CommandLine

/-- A command, or the program itself. -/
inductive Command where
  | program
  | generate
  | check
  | lint
  | compile
  | diff
  | relations
  | watch
  | cache
  | clear
  | prune
  | completion
  | help
  deriving DecidableEq, Inhabited

/-- How many arguments a command takes. -/
inductive Arity where
  | any
  | none
  | atLeast (n : Nat)
  | exactly (n : Nat)
  deriving DecidableEq, Inhabited

namespace Command

/-- The word for a command. -/
def name : Command → String
  | program => "erd-catalyst"
  | generate => "generate"
  | check => "check"
  | lint => "lint"
  | compile => "compile"
  | diff => "diff"
  | relations => "relations"
  | watch => "watch"
  | cache => "cache"
  | clear => "clear"
  | prune => "prune"
  | completion => "completion"
  | help => "help"

/-- The commands below a command, in the order of declaration. -/
def children : Command → List Command
  | program => [generate, check, lint, compile, diff, relations, watch, cache, completion, help]
  | cache => [clear, prune]
  | _ => []

/-- The words that lead to a command. -/
def path : Command → String
  | program => program.name
  | clear => program.name ++ " " ++ cache.name ++ " " ++ clear.name
  | prune => program.name ++ " " ++ cache.name ++ " " ++ prune.name
  | c => program.name ++ " " ++ c.name

/-- Whether a command does something by itself. One that does not shows its help text. -/
def isRunnable : Command → Bool
  | program => false
  | cache => false
  | completion => false
  | _ => true

/-- How many arguments a command takes. -/
def arity : Command → Arity
  | compile => .atLeast 1
  | diff => .exactly 2
  | program => .any
  | cache => .any
  | help => .any
  | _ => .none

/-- The flags of a command's own. -/
def ownFlags : Command → List Flag
  | generate => [
      .switch "dry-run" .none "print the generated SQL instead of writing files"
        fun v s => { s with dryRun := v },
      outFlag, dialectFlag, lintFlag,
      .switch "no-cache" .none "ignore the compile cache" fun v s => { s with noCache := v },
      .integer "jobs" (some 'j') "parallel compilations (default: number of CPUs)"
        fun v s => { s with jobs := v }]
  | check => [dialectFlag, outFlag]
  | compile => [
      { dialectFlag with usage := "SQL dialect (default postgresql)" },
      .switch "if-not-exists" .none "guard CREATE statements with IF NOT EXISTS"
        fun v s => { s with ifNotExists := v },
      lintFlag]
  | diff => [.switch "statements" (some 's') "print the differing statements"
      fun v s => { s with statements := v }]
  | watch => [dialectFlag, outFlag,
      .duration "debounce" "quiet period before rebuilding (default 200ms)"
        fun v s => { s with debounce := v }]
  | prune => [.duration "older-than" "minimum age of removed entries (default 720h0m0s)"
      fun v s => { s with olderThan := v }]
  | _ => []

/-- The flags that are known while the command is looked for. -/
def flags (c : Command) : List Flag :=
  c.ownFlags ++ globalFlags

/-- The flags that every command has besides: help, and the version of the program. -/
def builtinFlags (c : Command) : List Flag :=
  helpFlag c.name :: if c == program then [versionFlag c.name] else []

end Command

end ErdSql.CommandLine
