import ErdSql.Proofs.Requests

/-!
# Sentences of the grammar

The grammar of lines and statements, as a relation between tokens and what they say. Every token of a
sentence has its place in a rule, so a reader that takes the tokens of a sentence leaves none of them
out.

* `Document.Takes`: a reader takes the tokens of a sentence about its value.
* `Document.LineSays`: the sentences that are lines of an entity.
* `Document.takes_literal`, `Document.takes_constraint`, `Document.takes_feature`: the readers do.
* `Document.lineSays_of_entityLine`: a line that is read without a fault is a sentence, from its first
  token to its last.
-/

namespace ErdSql

/-! ### Clauses of a policy -/

namespace Policy

/-- The kinds of clauses of a policy. -/
inductive Slot where
  | command
  | role
  | usingExpr
  | withCheck
  deriving DecidableEq

/-- A clause of a policy with what it asks for. -/
structure Part where
  slot : Slot
  operand : String
  deriving DecidableEq

/-- A policy with a clause, in place of one of the same kind that it had. -/
def set (p : Policy) (part : Part) : Policy :=
  match part.slot with
  | .command => { p with command := part.operand }
  | .role => { p with role := part.operand }
  | .usingExpr => { p with usingExpr := part.operand }
  | .withCheck => { p with withCheck := part.operand }

end Policy

namespace Document

open ErdSql.Document.Parser

/-! ### Sentences -/

section Lists
variable {α : Type}

/-- Tokens among which every parenthesis is closed. -/
inductive BalancedTokens : List Token → Prop where
  | nil :
    BalancedTokens []
  | plain {t ts} :
    t.isSymbol '(' = false →
    t.isSymbol ')' = false →
    BalancedTokens ts →
    BalancedTokens (t :: ts)
  | group {opening inner closing ts} :
    opening.isSymbol '(' = true →
    BalancedTokens inner →
    closing.isSymbol ')' = true →
    BalancedTokens ts →
    BalancedTokens (opening :: (inner ++ closing :: ts))

/-- Sentences one behind the other. -/
inductive InRow (R : List Token → α → Prop) : List Token → List α → Prop where
  | nil :
    InRow R [] []
  | cons {ts us a as} :
    R ts a →
    InRow R us as →
    InRow R (ts ++ us) (a :: as)

/-- Sentences divided by commas. -/
inductive Divided (R : List Token → α → Prop) : List Token → List α → Prop where
  | last {ts a} :
    R ts a →
    Divided R ts [a]
  | more {ts comma us a as} :
    R ts a →
    comma.isSymbol ',' = true →
    Divided R us as →
    Divided R (ts ++ comma :: us) (a :: as)

/-- A list in parentheses, which may be empty. -/
inductive InParentheses (R : List Token → α → Prop) : List Token → List α → Prop where
  | empty {opening closing} :
    opening.isSymbol '(' = true →
    closing.isSymbol ')' = true →
    InParentheses R [opening, closing] []
  | items {opening ts closing as} :
    opening.isSymbol '(' = true →
    Divided R ts as →
    closing.isSymbol ')' = true →
    InParentheses R (opening :: (ts ++ [closing])) as

end Lists

/-- A name as it is written. -/
inductive NameSays : List Token → String → Prop where
  | mk {t} :
    t.isName = true →
    NameSays [t] t.spelling

/-- A constant. Only the arguments of a call are copied from the source. -/
inductive LiteralSays (src : Source) : List Token → Literal → Prop where
  | number {t} :
    t.kind = .number →
    LiteralSays src [t] ⟨.number, t.spelling, t.span⟩
  | negative {minus t} :
    minus.isSymbol '-' = true →
    t.kind = .number →
    LiteralSays src [minus, t] ⟨.number, "-" ++ t.spelling, Span.between minus t⟩
  | string {t} :
    t.kind = .string →
    LiteralSays src [t] ⟨.string, t.spelling, t.span⟩
  | list {t} :
    t.kind = .list →
    LiteralSays src [t] ⟨.list, t.spelling, t.span⟩
  | null {t} :
    t.kind = .keyword .null →
    LiteralSays src [t] ⟨.null, Keyword.null.word, t.span⟩
  | name {t} :
    t.kind = .identifier →
    LiteralSays src [t] ⟨.identifier, t.spelling, t.span⟩
  | call {t opening inner closing} :
    t.kind = .identifier →
    opening.isSymbol '(' = true →
    BalancedTokens inner →
    closing.isSymbol ')' = true →
    LiteralSays src (t :: opening :: (inner ++ [closing]))
      ⟨.call, String.ofList (src t.offset closing.stop), Span.between t closing⟩

/-- A constraint behind a field name. -/
inductive ClauseSays (src : Source) : List Token → Clause → Prop where
  | primaryKey {t} :
    t.kind = .keyword .pk →
    ClauseSays src [t] .primaryKey
  | unique {t} :
    t.kind = .keyword .unique →
    ClauseSays src [t] .unique
  | notNull {t null} :
    t.kind = .keyword .not →
    null.isKeyword .null = true →
    ClauseSays src [t, null] .notNull
  | default {t ts value} :
    t.kind = .keyword .default →
    LiteralSays src ts value →
    ClauseSays src (t :: ts) (.default value)
  | foreignKey {t} :
    t.kind = .keyword .fk →
    ClauseSays src [t] (.foreignKey none)
  | foreignKeyTo {t opening target closing} :
    t.kind = .keyword .fk →
    opening.isSymbol '(' = true →
    target.isName = true →
    closing.isSymbol ')' = true →
    ClauseSays src [t, opening, target, closing] (.foreignKey (some target.spelling))
  | check {t e} :
    t.kind = .keyword .check →
    e.kind = .expr →
    ClauseSays src [t, e] (.check e.spelling)

/-- The word in front of a type that says nothing. -/
inductive HasSays : List Token → Bool → Prop where
  | absent :
    HasSays [] false
  | present {t} :
    t.isKeyword .has = true →
    HasSays [t] true

/-- The arguments of a type. -/
inductive ArgumentsSay (src : Source) : List Token → List Literal → Prop where
  | absent :
    ArgumentsSay src [] []
  | present {ts args} :
    InParentheses (LiteralSays src) ts args →
    ArgumentsSay src ts args

/-- A field line up to its constraints. -/
inductive HeadSays (src : Source) : List Token → Field → Prop where
  | mk {has type args name} {f : Field} :
    HasSays has f.has →
    isTypeName type = true →
    f.type.name = type.spelling →
    ArgumentsSay src args f.type.args →
    name.kind = .field f.cardinality →
    f.name = name.spelling →
    HeadSays src (has ++ type :: (args ++ [name])) f

/-- A field line. -/
inductive FieldSays (src : Source) : List Token → Field → Prop where
  | mk {head clauses} {f : Field} :
    HeadSays src head f →
    InRow (fun ts k => ClauseSays src ts k.clause) clauses f.constraints →
    FieldSays src (head ++ clauses) f

/-- A key line. -/
inductive KeySays : List Token → Key → Prop where
  | primary {t ts columns} :
    t.kind = .keyword .pk →
    InParentheses NameSays ts columns →
    KeySays (t :: ts) (.primary columns)
  | unique {t ts columns} :
    t.kind = .keyword .unique →
    InParentheses NameSays ts columns →
    KeySays (t :: ts) (.unique columns)
  | check {t e} :
    t.kind = .keyword .check →
    e.kind = .expr →
    KeySays [t, e] (.check e.spelling)

/-- A clause of a policy. -/
inductive PartSays : List Token → Policy.Part → Prop where
  | command {word t} :
    word.isWord "FOR" = true →
    t.kind = .identifier →
    PartSays [word, t] ⟨.command, Text.upper t.spelling⟩
  | role {word t} :
    word.isWord "TO" = true →
    t.kind = .identifier →
    PartSays [word, t] ⟨.role, t.spelling⟩
  | usingExpr {word e} :
    word.isWord "USING" = true →
    e.kind = .expr →
    PartSays [word, e] ⟨.usingExpr, e.spelling⟩
  | withCheck {word check e} :
    word.isWord "WITH" = true →
    check.isKeyword .check = true →
    e.kind = .expr →
    PartSays [word, check, e] ⟨.withCheck, e.spelling⟩

/-- A feature line. -/
inductive FeatureSays (src : Source) : List Token → Feature → Prop where
  | partition {t word strategy ts columns} :
    t.kind = .keyword .partition →
    word.isWord "BY" = true →
    strategy.kind = .identifier →
    InParentheses NameSays ts columns →
    FeatureSays src (t :: word :: strategy :: ts) (.partition (Text.upper strategy.spelling) columns)
  | ttl {t opening column comma ts interval closing} :
    t.kind = .keyword .ttl →
    opening.isSymbol '(' = true →
    column.isName = true →
    comma.isSymbol ',' = true →
    LiteralSays src ts interval →
    closing.isSymbol ')' = true →
    FeatureSays src (t :: opening :: column :: comma :: (ts ++ [closing])) (.ttl column.spelling interval)
  | fts {t ts columns} :
    t.kind = .keyword .fts →
    InParentheses NameSays ts columns →
    FeatureSays src (t :: ts) (.fts columns "GIN")
  | ftsUsing {t ts columns word method} :
    t.kind = .keyword .fts →
    InParentheses NameSays ts columns →
    word.isWord "USING" = true →
    method.kind = .identifier →
    FeatureSays src (t :: (ts ++ [word, method])) (.fts columns (Text.upper method.spelling))
  | rls {t} :
    t.kind = .keyword .rls →
    FeatureSays src [t] (.rls .enable)
  | rlsMode {t word mode} :
    t.kind = .keyword .rls →
    word.kind = .identifier →
    SecurityMode.ofText? word.spelling = some mode →
    FeatureSays src [t, word] (.rls mode)
  | policy {t name ts parts} :
    t.kind = .keyword .policy →
    name.kind = .identifier →
    InRow PartSays ts parts →
    FeatureSays src (t :: name :: ts) (.policy (parts.foldl Policy.set ⟨name.spelling, "", "", "", ""⟩))
  | auditable {t} :
    t.kind = .keyword .auditable →
    FeatureSays src [t] .auditable
  | softDelete {t ts column} :
    t.kind = .keyword .softDelete →
    InParentheses NameSays ts [column] →
    FeatureSays src (t :: ts) (.softDelete column)

/-- A line of an entity. -/
inductive LineSays (src : Source) : List Token → LineItem → Prop where
  | field {ts f} :
    FieldSays src ts f →
    LineSays src ts (.field f)
  | key {ts} {k : KeyLine} :
    KeySays ts k.key →
    LineSays src ts (.key k)
  | directive {ts} {d : Directive} :
    FeatureSays src ts d.feature →
    LineSays src ts (.directive d)

/-! ### What a reader has done -/

section Readers
variable {α β : Type}

/-- A reader gives a value at a place and stops at another place. -/
def Returns (p : Parser α) (c : Cursor) (a : α) (after : Cursor) : Prop :=
  p c = .ok a after

/-- Where a reader gives a value, it has taken the tokens of a sentence about it. -/
def Takes (p : Parser α) (R : List Token → α → Prop) : Prop :=
  ∀ c a after, Returns p c a after → ∃ used, c.rest = used ++ after.rest ∧ R used a

variable {p : Parser α} {f : α → Parser β} {c after : Cursor} {a : α} {b : β} {t : Token} {test : Token → Bool}

lemma exists_of_bind (h : Returns (p >>= f) c b after) :
    ∃ a mid, Returns p c a mid ∧ Returns (f a) mid b after := by
  change Parser.bind p f c = _ at h
  rw [Parser.bind] at h
  split at h
  · next a mid found => exact ⟨a, mid, found, h⟩
  · cases h

/-- The current token is looked at. -/
lemma of_peek {g : Token → Parser β} (h : Returns (peek >>= g) c b after) : Returns (g c.current) c b after :=
  h

/-- The current token is read. -/
lemma of_next {g : Token → Parser β} (h : Returns (next >>= g) c b after) :
    Returns (g c.current) c.skip b after :=
  h

lemma of_ite {x : Bool} {q : Parser α} (h : Returns (if x then p else q) c a after) :
    x = true ∧ Returns p c a after ∨ x = false ∧ Returns q c a after := by
  cases x
  · exact .inr ⟨rfl, h⟩
  · exact .inl ⟨rfl, h⟩

/-- A test of the current token decides how reading goes on. -/
lemma of_sees {q : Parser α} (h : Returns (sees test >>= fun x => if x then p else q) c a after) :
    test c.current = true ∧ Returns p c a after ∨ test c.current = false ∧ Returns q c a after :=
  of_ite h

/-- Where the current token is of a kind, it is the first one of those left. -/
lemma rest_eq_cons (h : c.current.kind ≠ .eof) : c.rest = c.current :: c.skip.rest := by
  cases rest : c.rest with
  | nil => exact absurd (kind_current_of_nil rest) h
  | cons t ts => simp [Cursor.current, Cursor.skip, rest]

lemma rest_eq_cons_of_isSymbol {s : Char} (h : c.current.isSymbol s = true) :
    c.rest = c.current :: c.skip.rest :=
  rest_eq_cons fun none => by simp [Token.isSymbol, none] at h

lemma rest_eq_cons_of_isKeyword {k : Keyword} (h : c.current.isKeyword k = true) :
    c.rest = c.current :: c.skip.rest :=
  rest_eq_cons fun none => by simp [Token.isKeyword, none] at h

lemma rest_eq_cons_of_isWord {w : String} (h : c.current.isWord w = true) :
    c.rest = c.current :: c.skip.rest :=
  rest_eq_cons fun none => by simp [Token.isWord, none] at h

/-- A token that passes a test, which no end of a line does, is the first one left. -/
lemma of_satisfy {expected : Expected} (final : ∀ t : Token, t.kind = .eof → test t = false)
    (h : Returns (satisfy test expected) c t after) : test t = true ∧ c.rest = t :: after.rest := by
  unfold Returns satisfy at h
  split at h
  · next passes =>
    cases h
    refine ⟨passes, rest_eq_cons fun none => ?_⟩
    rw [final _ none] at passes
    cases passes
  · cases h

section Tokens
variable {expected : Expected}

lemma of_identifier (h : Returns (identifier expected) c t after) :
    t.kind = .identifier ∧ c.rest = t :: after.rest := by
  obtain ⟨kind, rest⟩ := of_satisfy (fun t none => by simp [none]) h
  exact ⟨by simpa using kind, rest⟩

lemma of_name (h : Returns (name expected) c t after) : t.isName = true ∧ c.rest = t :: after.rest :=
  of_satisfy (fun t none => by simp [Token.isName, none]) h

lemma of_symbol {s : Char} (h : Returns (symbol s) c t after) :
    t.isSymbol s = true ∧ c.rest = t :: after.rest :=
  of_satisfy (fun t none => by simp [Token.isSymbol, none]) h

lemma of_word {w : String} (h : Returns (word w) c t after) :
    t.isWord w = true ∧ c.rest = t :: after.rest :=
  of_satisfy (fun t none => by simp [Token.isWord, none]) h

lemma of_keyword {k : Keyword} (h : Returns (satisfy (·.isKeyword k) expected) c t after) :
    t.isKeyword k = true ∧ c.rest = t :: after.rest :=
  of_satisfy (fun t none => by simp [Token.isKeyword, none]) h

lemma of_expr (h : Returns (expr expected) c t after) : t.kind = .expr ∧ c.rest = t :: after.rest := by
  obtain ⟨kind, rest⟩ := of_satisfy (fun t none => by simp [none]) h
  exact ⟨by simpa using kind, rest⟩

lemma of_finish {u : Unit} (h : Returns (finish expected) c u after) : c.rest = [] ∧ after = c := by
  unfold Returns finish at h
  split at h
  · next none =>
    cases h
    exact ⟨List.isEmpty_iff.1 none, rfl⟩
  · cases h

end Tokens

/-! ### Lists -/

variable {R : List Token → α → Prop} {S : List Token → β → Prop}

lemma Divided.map {ts : List Token} {as : List α} {g : α → β} (h : Divided R ts as)
    (one : ∀ us a, R us a → S us (g a)) : Divided S ts (as.map g) := by
  induction h with
  | last first => exact .last (one _ _ first)
  | more first comma _ ih => exact .more (one _ _ first) comma ih

/-- Items divided by commas are read up to the closing parenthesis. -/
lemma divided_of_commaList (item : Takes p R) {unfinished : Expected} {as : List α} {close : Token}
    (h : Returns (commaList p unfinished) c (as, close) after) :
    ∃ ts, c.rest = ts ++ close :: after.rest ∧ Divided R ts as ∧ close.isSymbol ')' = true := by
  induction length : c.rest.length using Nat.strong_induction_on generalizing c as with
  | _ n ih =>
    unfold Returns at h
    rw [commaList] at h
    split at h
    · cases h
    · next a mid found =>
      obtain ⟨used, rest, said⟩ := item _ _ _ found
      split at h
      · next comma =>
        split at h
        · next shorter =>
          split at h
          · next found' =>
            cases h
            obtain ⟨ts, behind, divided, closing⟩ := ih _ (length ▸ shorter) found' rfl
            refine ⟨used ++ mid.current :: ts, ?_, .more said comma divided, closing⟩
            rw [rest, rest_eq_cons_of_isSymbol comma, behind, List.append_assoc, List.cons_append]
          · cases h
        · cases h
      · split at h
        · next closing =>
          cases h
          exact ⟨used, by rw [rest, rest_eq_cons_of_isSymbol closing], .last said, closing⟩
        · cases h

/-- A list of names is read from its parenthesis to the one that closes it. -/
lemma takes_nameList (item : ListItem) : Takes (nameList item) (InParentheses NameSays) := by
  intro c columns after h
  obtain ⟨opening, d, first, h⟩ := exists_of_bind h
  obtain ⟨opens, rest⟩ := of_symbol first
  obtain ⟨closes, h⟩ | ⟨-, h⟩ := of_sees h
  · cases h
    exact ⟨[opening, d.current], by rw [rest, rest_eq_cons_of_isSymbol closes]; rfl, .empty opens closes⟩
  · obtain ⟨⟨names, close⟩, d', list, h⟩ := exists_of_bind h
    cases h
    obtain ⟨ts, behind, divided, closes⟩ :=
      divided_of_commaList (R := fun ts t => ts = [t] ∧ t.isName = true)
        (fun c t after read => ⟨[t], (of_name read).2, rfl, (of_name read).1⟩) list
    refine ⟨opening :: (ts ++ [close]), by rw [rest, behind]; simp, .items opens ?_ closes⟩
    refine divided.map ?_
    rintro _ t ⟨rfl, isName⟩
    exact .mk isName

/-! ### Literals -/

/-- Inside so many open parentheses, what stands in front of the one that closes the innermost. -/
lemma exists_of_balancedEnd {depth : Nat} {ts rest : List Token} {close : Token}
    (h : balancedEnd (depth + 1) ts = some (close, rest)) :
    ∃ inner closing behind, ts = inner ++ closing :: behind ∧ BalancedTokens inner ∧
      closing.isSymbol ')' = true ∧
      (depth = 0 ∧ closing = close ∧ behind = rest ∨
        0 < depth ∧ balancedEnd depth behind = some (close, rest)) := by
  induction length : ts.length using Nat.strong_induction_on generalizing ts depth with
  | _ n ih =>
    cases ts with
    | nil => cases h
    | cons t ts =>
      rw [List.length_cons] at length
      rw [balancedEnd] at h
      split at h
      · next opening =>
        -- behind the group that opens here, tokens at this depth follow
        obtain ⟨inner, closing, behind, rfl, balanced, closes, ⟨⟨⟩, -⟩ | ⟨-, more⟩⟩ := ih _ (by omega) h rfl
        obtain ⟨inner', last, rest', rfl, balanced', closes', ends⟩ :=
          ih _ (by simp at length; omega) more rfl
        exact ⟨t :: (inner ++ closing :: inner'), last, rest', by simp,
          .group opening balanced closes balanced', closes', ends⟩
      · next noOpening =>
        split at h
        · next closes =>
          refine ⟨[], t, ts, rfl, .nil, closes, ?_⟩
          split at h
          · next last =>
            cases h
            exact .inl ⟨by omega, rfl, rfl⟩
          · next more => exact .inr ⟨by omega, h⟩
        · next noClosing =>
          obtain ⟨inner, closing, behind, rfl, balanced, ends⟩ := ih _ (by omega) h rfl
          exact ⟨t :: inner, closing, behind, rfl,
            .plain (by simpa using noOpening) (by simpa using noClosing) balanced, ends⟩

/-- Tokens in parentheses are read from the first parenthesis to the one that closes it. -/
lemma of_balanced {close : Token} (opens : c.current.isSymbol '(' = true) (h : Returns balanced c close after) :
    ∃ inner, c.rest = c.current :: (inner ++ close :: after.rest) ∧ BalancedTokens inner ∧
      close.isSymbol ')' = true := by
  unfold Returns balanced at h
  split at h
  · next rest found =>
    cases h
    rw [rest_eq_cons_of_isSymbol opens, balancedEnd, if_pos opens] at found
    obtain ⟨inner, _, _, behind, inside, closes, ⟨-, rfl, rfl⟩ | ⟨⟨⟩, -⟩⟩ := exists_of_balancedEnd found
    exact ⟨inner, by rw [rest_eq_cons_of_isSymbol opens, behind], inside, closes⟩
  · cases h

lemma takes_literal (src : Source) : Takes (literal src) (LiteralSays src) := by
  intro c l after h
  replace h := of_peek h
  -- a literal that is one token
  have one {kind : Token.Kind} (here : c.current.kind = kind) (ne : kind ≠ .eof) :
      c.rest = [c.current] ++ c.skip.rest := rest_eq_cons (here ▸ ne)
  split at h
  · next kind =>
    cases h
    exact ⟨_, one kind nofun, .number kind⟩
  · next kind =>
    cases h
    exact ⟨_, one kind nofun, .string kind⟩
  · next kind =>
    cases h
    exact ⟨_, one kind nofun, .list kind⟩
  · next kind =>
    cases h
    exact ⟨_, one kind nofun, .null kind⟩
  · next kind =>
    obtain ⟨opens, h⟩ | ⟨-, h⟩ := of_sees (of_next h)
    · obtain ⟨close, d, read, h⟩ := exists_of_bind h
      cases h
      obtain ⟨inner, behind, balanced, closes⟩ := of_balanced opens read
      refine ⟨_, ?_, .call kind opens balanced closes⟩
      rw [one kind nofun, behind]
      simp
    · cases h
      exact ⟨_, one kind nofun, .name kind⟩
  · obtain ⟨ts, d, read, h⟩ := exists_of_bind h
    cases read
    split at h
    · next minus digits more front =>
      split at h
      · next negative =>
        rw [Bool.and_eq_true, beq_iff_eq] at negative
        cases of_next (of_next h)
        have second : c.skip.current = digits := by simp [Cursor.skip, Cursor.current, front]
        have behind : c.skip.skip.rest = more := by simp [Cursor.skip, front]
        rw [second, behind]
        exact ⟨[minus, digits], front, .negative negative.1 negative.2⟩
      · cases h
    · cases h

/-! ### Fields -/

lemma takes_typeArguments (src : Source) {args : List Literal} {close : Token}
    (opens : c.current.isSymbol '(' = true) (h : Returns (typeArguments src) c (args, close) after) :
    ∃ used, c.rest = used ++ after.rest ∧ InParentheses (LiteralSays src) used args := by
  have first := rest_eq_cons_of_isSymbol opens
  obtain ⟨closes, h⟩ | ⟨-, h⟩ := of_sees (of_next h)
  · cases h
    exact ⟨[c.current, c.skip.current], by rw [first, rest_eq_cons_of_isSymbol closes]; rfl,
      .empty opens closes⟩
  · obtain ⟨ts, behind, divided, closes⟩ := divided_of_commaList (takes_literal src) h
    exact ⟨c.current :: (ts ++ [close]), by rw [first, behind]; simp, .items opens divided closes⟩

lemma takes_constraint (src : Source) : Takes (constraint src) fun ts k => ClauseSays src ts k.clause := by
  intro c k after h
  replace h := of_peek h
  -- the keyword that a constraint starts with
  have first {k : Keyword} (here : c.current.kind = .keyword k) : c.rest = c.current :: c.skip.rest :=
    rest_eq_cons (by simp [here])
  split at h
  · next kind =>
    cases h
    exact ⟨[c.current], first kind, .primaryKey kind⟩
  · next kind =>
    cases h
    exact ⟨[c.current], first kind, .unique kind⟩
  · next kind =>
    obtain ⟨null, d, read, h⟩ := exists_of_bind (of_next h)
    cases h
    obtain ⟨isNull, behind⟩ := of_keyword read
    exact ⟨[c.current, null], by rw [first kind, behind]; rfl, .notNull kind isNull⟩
  · next kind =>
    obtain ⟨value, d, read, h⟩ := exists_of_bind (of_next h)
    cases h
    obtain ⟨used, behind, said⟩ := takes_literal src _ _ _ read
    exact ⟨c.current :: used, by rw [first kind, behind]; rfl, .default kind said⟩
  · next kind =>
    obtain ⟨opens, h⟩ | ⟨-, h⟩ := of_sees (of_next h)
    · obtain ⟨target, d, read, h⟩ := exists_of_bind (of_next h)
      obtain ⟨close, d', read', h⟩ := exists_of_bind h
      cases h
      obtain ⟨isName, behind⟩ := of_name read
      obtain ⟨closes, behind'⟩ := of_symbol read'
      refine ⟨[c.current, c.skip.current, target, close], ?_, .foreignKeyTo kind opens isName closes⟩
      rw [first kind, rest_eq_cons_of_isSymbol opens, behind, behind']
      rfl
    · cases h
      exact ⟨[c.current], first kind, .foreignKey kind⟩
  · next kind =>
    obtain ⟨e, d, read, h⟩ := exists_of_bind (of_next h)
    cases h
    obtain ⟨isExpr, behind⟩ := of_expr read
    exact ⟨[c.current, e], by rw [first kind, behind]; rfl, .check kind isExpr⟩
  · cases h
  · cases h

/-- Constraints that are read without a fault are read to the end of the line. -/
lemma inRow_of_constraints {src : Source} {span all : Span} {ks : List Constraint} {stopped : Cursor}
    (h : constraints src span c = (ks, all, none, stopped)) :
    InRow (fun ts k => ClauseSays src ts k.clause) c.rest ks := by
  induction length : c.rest.length using Nat.strong_induction_on generalizing c span all ks stopped with
  | _ n ih =>
    rw [constraints] at h
    split at h
    · next none =>
      cases h
      rw [List.isEmpty_iff.1 none]
      exact .nil
    · split at h
      · cases h
      · next k mid found =>
        obtain ⟨used, rest, said⟩ := takes_constraint src _ _ _ found
        have shorter := advances_constraint src _ _ _ found
        rw [if_pos shorter] at h
        generalize more : constraints src (span.extend mid.previous) mid = result at h
        obtain ⟨ks, all, fault, stopped⟩ := result
        cases h
        rw [rest]
        exact .cons said (ih _ (length ▸ shorter) more rfl)

lemma takes_fieldName : Takes fieldName fun ts x => ts = [x.1] ∧ x.1.kind = .field x.2 := by
  intro c x after h
  replace h := of_peek h
  split at h
  · next kind =>
    cases h
    exact ⟨[c.current], rest_eq_cons (by simp [kind]), rfl, kind⟩
  · obtain ⟨-, h⟩ | ⟨-, h⟩ := of_ite h
    · cases of_next h
    · cases h

/-- What stands behind the optional word in front of a type. -/
lemma headSays_of_behind {src : Source} {has : Bool} {start : Token} {f : Field}
    (h : Returns (satisfy isTypeName .typeName >>= fun type =>
      sees (·.isSymbol '(') >>= fun called =>
        if called then typeArguments src >>= fun (args, close) => fieldName >>= fun (t, cardinality) =>
          Pure.pure ⟨has, ⟨type.spelling, args, Span.between type close⟩, cardinality, t.spelling, [],
            Span.between start t⟩
        else fieldName >>= fun (t, cardinality) =>
          Pure.pure ⟨has, ⟨type.spelling, [], type.span⟩, cardinality, t.spelling, [],
            Span.between start t⟩) c f after) {front : List Token} (said : HasSays front has) :
    ∃ used, c.rest = used ++ after.rest ∧ HeadSays src (front ++ used) f := by
  obtain ⟨type, d, read, h⟩ := exists_of_bind h
  obtain ⟨isType, rest⟩ := of_satisfy (fun t none => by simp [isTypeName, Token.isName, none]) read
  obtain ⟨opens, h⟩ | ⟨-, h⟩ := of_sees h
  · obtain ⟨⟨args, close⟩, d₁, read, h⟩ := exists_of_bind h
    obtain ⟨⟨name, cardinality⟩, d₂, read', h⟩ := exists_of_bind h
    cases h
    obtain ⟨used, rest₁, saidArgs⟩ := takes_typeArguments src opens read
    obtain ⟨_, rest₂, rfl, kind⟩ := takes_fieldName _ _ _ read'
    exact ⟨type :: (used ++ [name]), by rw [rest, rest₁, rest₂]; simp,
      .mk said isType rfl (.present saidArgs) kind rfl⟩
  · obtain ⟨⟨name, cardinality⟩, d₁, read, h⟩ := exists_of_bind h
    cases h
    obtain ⟨_, rest₁, rfl, kind⟩ := takes_fieldName _ _ _ read
    exact ⟨type :: ([] ++ [name]), by rw [rest, rest₁]; rfl, .mk said isType rfl .absent kind rfl⟩

lemma takes_fieldHead (src : Source) : Takes (fieldHead src) (HeadSays src) := by
  intro c f after h
  obtain ⟨has, d, seen, h⟩ := exists_of_bind (of_peek h)
  cases seen
  obtain ⟨isHas, h⟩ | ⟨noHas, h⟩ := of_ite h
  · obtain ⟨used, rest, said⟩ := headSays_of_behind (of_next h) (by rw [isHas]; exact .present isHas)
    exact ⟨[c.current] ++ used, by rw [rest_eq_cons_of_isKeyword isHas, rest]; rfl, said⟩
  · obtain ⟨used, rest, said⟩ := headSays_of_behind h (by rw [noHas]; exact .absent)
    exact ⟨used, rest, said⟩

lemma HeadSays.withConstraints {src : Source} {ts : List Token} {f : Field} (h : HeadSays src ts f)
    (ks : List Constraint) (span : Span) : HeadSays src ts { f with constraints := ks, span := span } := by
  cases h with
  | mk has isType typed args kind named => exact .mk has isType typed args kind named

/-- A field line without a fault is a sentence. -/
lemma fieldSays_of_fieldLine {src : Source} {r : LineResult} (read : fieldLine src c = r)
    (h : r.fault = none) : ∃ f, r.item = some (.field f) ∧ FieldSays src c.rest f := by
  unfold fieldLine at read
  split at read
  · subst read
    cases h
  · next f mid found =>
    obtain ⟨used, rest, said⟩ := takes_fieldHead src _ _ _ found
    generalize more : constraints src f.span mid = result at read
    obtain ⟨ks, all, fault, stopped⟩ := result
    subst read
    obtain rfl : fault = none := h
    rw [rest]
    exact ⟨_, rfl, .mk (said.withConstraints ks all) (inRow_of_constraints more)⟩

/-! ### Lines of an entity -/

lemma keySays_of_keyLine {key : List String → Key} {k : KeyLine} (h : Returns (keyLine key) c k after)
    (left : c.current.kind ≠ .eof) :
    ∃ ts columns, c.rest = c.current :: ts ∧ InParentheses NameSays ts columns ∧ k.key = key columns := by
  obtain ⟨-, h⟩ | ⟨-, h⟩ := of_sees (of_next h)
  · obtain ⟨columns, d, read, h⟩ := exists_of_bind h
    obtain ⟨_, d', done, h'⟩ := exists_of_bind h
    obtain ⟨none, rfl⟩ := of_finish done
    cases h'
    obtain ⟨used, rest, said⟩ := takes_nameList _ _ _ _ read
    rw [none, List.append_nil] at rest
    exact ⟨used, columns, by rw [rest_eq_cons left, rest], said, rfl⟩
  · cases h

lemma keySays_of_checkLine {k : KeyLine} (h : Returns checkLine c k after)
    (kind : c.current.kind = .keyword .check) : KeySays c.rest k.key := by
  obtain ⟨e, d, read, h⟩ := exists_of_bind (of_next h)
  obtain ⟨_, d', done, h'⟩ := exists_of_bind h
  obtain ⟨none, rfl⟩ := of_finish done
  cases h'
  obtain ⟨isExpr, behind⟩ := of_expr read
  rw [rest_eq_cons (by simp [kind]), behind, none]
  exact .check kind isExpr

/-- A clause of a policy is read from its word on, and set. -/
lemma takes_policyClause (q : Policy) :
    Takes (policyClause q) fun ts q' => ∃ part, PartSays ts part ∧ q' = q.set part := by
  intro c q' after h
  obtain ⟨word, h⟩ | ⟨-, h⟩ := of_sees h
  · obtain ⟨t, d, read, h⟩ := exists_of_bind (of_next h)
    cases h
    obtain ⟨kind, behind⟩ := of_identifier read
    exact ⟨[c.current, t], by rw [rest_eq_cons_of_isWord word, behind]; rfl, _, .command word kind, rfl⟩
  obtain ⟨word, h⟩ | ⟨-, h⟩ := of_sees h
  · obtain ⟨t, d, read, h⟩ := exists_of_bind (of_next h)
    cases h
    obtain ⟨kind, behind⟩ := of_identifier read
    exact ⟨[c.current, t], by rw [rest_eq_cons_of_isWord word, behind]; rfl, _, .role word kind, rfl⟩
  obtain ⟨word, h⟩ | ⟨-, h⟩ := of_sees h
  · obtain ⟨e, d, read, h⟩ := exists_of_bind (of_next h)
    cases h
    obtain ⟨kind, behind⟩ := of_expr read
    exact ⟨[c.current, e], by rw [rest_eq_cons_of_isWord word, behind]; rfl, _, .usingExpr word kind, rfl⟩
  obtain ⟨word, h⟩ | ⟨-, h⟩ := of_sees h
  · obtain ⟨check, d, read, h⟩ := exists_of_bind (of_next h)
    obtain ⟨e, d', read', h⟩ := exists_of_bind h
    cases h
    obtain ⟨isCheck, behind⟩ := of_keyword read
    obtain ⟨kind, behind'⟩ := of_expr read'
    exact ⟨[c.current, check, e], by rw [rest_eq_cons_of_isWord word, behind, behind']; rfl, _,
      .withCheck word isCheck kind, rfl⟩
  · cases h

/-- The clauses of a policy are read to the end of the line, each one set behind the ones before. -/
lemma inRow_of_policyClauses {q q' : Policy} (h : Returns (repeatToEnd policyClause q) c q' after) :
    after.rest = [] ∧ ∃ parts, InRow PartSays c.rest parts ∧ q' = parts.foldl Policy.set q := by
  induction length : c.rest.length using Nat.strong_induction_on generalizing c q with
  | _ n ih =>
    unfold Returns at h
    rw [repeatToEnd] at h
    split at h
    · next none =>
      cases h
      have none := List.isEmpty_iff.1 none
      exact ⟨none, [], by rw [none]; exact .nil, rfl⟩
    · split at h
      · next q₁ mid found =>
        have shorter := advances_policyClause q _ _ _ found
        rw [if_pos shorter] at h
        obtain ⟨used, rest, part, said, rfl⟩ := takes_policyClause q _ _ _ found
        obtain ⟨none, parts, row, rfl⟩ := ih _ (length ▸ shorter) h rfl
        exact ⟨none, part :: parts, by rw [rest]; exact .cons said row, rfl⟩
      · cases h

/-- What stands behind the keyword of a feature line. -/
lemma featureSays_of_feature {src : Source} {k : Keyword} {t : Token} {x : Feature} (kind : t.kind = .keyword k)
    (isFeature : k ∈ [.partition, .ttl, .fts, .rls, .policy, .auditable, .softDelete])
    (h : Returns (feature src k) c x after) (done : after.rest = []) : FeatureSays src (t :: c.rest) x := by
  have whole {d : Cursor} {columns : List String} {item : ListItem} (h : Returns (nameList item) d columns after) :
      InParentheses NameSays d.rest columns := by
    obtain ⟨used, rest, said⟩ := takes_nameList _ _ _ _ h
    rwa [rest, done, List.append_nil]
  cases k
  case partition =>
    obtain ⟨word, d, read, h⟩ := exists_of_bind h
    obtain ⟨strategy, d', read', h⟩ := exists_of_bind h
    obtain ⟨columns, d'', read'', h⟩ := exists_of_bind h
    cases h
    obtain ⟨isBy, rest⟩ := of_word read
    obtain ⟨isName, rest'⟩ := of_identifier read'
    rw [rest, rest']
    exact .partition kind isBy isName (whole read'')
  case ttl =>
    obtain ⟨opening, d, read, h⟩ := exists_of_bind h
    obtain ⟨column, d₁, read₁, h⟩ := exists_of_bind h
    obtain ⟨comma, d₂, read₂, h⟩ := exists_of_bind h
    obtain ⟨interval, d₃, read₃, h⟩ := exists_of_bind h
    obtain ⟨closing, d₄, read₄, h⟩ := exists_of_bind h
    cases h
    obtain ⟨opens, rest⟩ := of_symbol read
    obtain ⟨isName, rest₁⟩ := of_name read₁
    obtain ⟨isComma, rest₂⟩ := of_symbol read₂
    obtain ⟨used, rest₃, said⟩ := takes_literal src _ _ _ read₃
    obtain ⟨closes, rest₄⟩ := of_symbol read₄
    rw [rest, rest₁, rest₂, rest₃, rest₄, done]
    exact .ttl kind opens isName isComma said closes
  case fts =>
    obtain ⟨columns, d, read, h⟩ := exists_of_bind h
    obtain ⟨used, rest, said⟩ := takes_nameList _ _ _ _ read
    obtain ⟨word, h⟩ | ⟨-, h⟩ := of_sees h
    · obtain ⟨method, d', read', h⟩ := exists_of_bind (of_next h)
      cases h
      obtain ⟨isName, rest'⟩ := of_identifier read'
      rw [rest, rest_eq_cons_of_isWord word, rest', done]
      exact .ftsUsing kind said word isName
    · cases h
      rw [rest, done, List.append_nil]
      exact .fts kind said
  case rls =>
    obtain ⟨none, d, seen, h⟩ := exists_of_bind h
    cases seen
    obtain ⟨none, h⟩ | ⟨-, h⟩ := of_ite h
    · cases h
      rw [List.isEmpty_iff.1 none]
      exact .rls kind
    · replace h := of_peek h
      split at h
      · next mode isName found =>
        cases of_next h
        rw [rest_eq_cons (by simp [isName]), done]
        exact .rlsMode kind isName found
      · cases h
  case policy =>
    obtain ⟨name, d, read, h⟩ := exists_of_bind h
    obtain ⟨q, d', read', h⟩ := exists_of_bind h
    cases h
    obtain ⟨isName, rest⟩ := of_identifier read
    obtain ⟨-, parts, row, rfl⟩ := inRow_of_policyClauses read'
    rw [rest]
    exact .policy kind isName row
  case softDelete =>
    obtain ⟨columns, d, read, h⟩ := exists_of_bind h
    split at h
    · next column =>
      cases h
      exact .softDelete kind (whole read)
    · obtain ⟨_, d', seen, h⟩ := exists_of_bind h
      cases h
  case auditable =>
    cases h
    rw [done]
    exact .auditable kind
  all_goals simp at isFeature

lemma featureSays_of_directiveLine {src : Source} {k : Keyword} {d : Directive}
    (h : Returns (directiveLine src k) c d after) (kind : c.current.kind = .keyword k)
    (isFeature : k ∈ [.partition, .ttl, .fts, .rls, .policy, .auditable, .softDelete]) :
    FeatureSays src c.rest d.feature := by
  obtain ⟨x, mid, read, h⟩ := exists_of_bind (of_next h)
  obtain ⟨_, mid', done, h'⟩ := exists_of_bind h
  obtain ⟨none, rfl⟩ := of_finish done
  cases h'
  rw [rest_eq_cons (by simp [kind])]
  exact featureSays_of_feature kind isFeature read none

lemma LineResult.returns_of_ofParsed {wrap : α → LineItem} {r : LineResult} (read : ofParsed wrap (p c) = r)
    (h : r.fault = none) : ∃ a after, Returns p c a after ∧ r.item = some (wrap a) := by
  cases found : p c with
  | ok a after =>
    rw [← read, found]
    exact ⟨a, after, found, rfl⟩
  | error e stopped =>
    rw [← read, found] at h
    cases h

/-- A line of an entity that is read without a fault gives one item, and is a sentence about it. -/
lemma lineSays_of_entityLine {src : Source} {r : LineResult} (read : entityLine src c = r)
    (h : r.fault = none) : ∃ item, r.item = some item ∧ LineSays src c.rest item := by
  have field (read : fieldLine src c = r) : ∃ item, r.item = some item ∧ LineSays src c.rest item := by
    obtain ⟨f, item, said⟩ := fieldSays_of_fieldLine read h
    exact ⟨_, item, .field said⟩
  unfold entityLine at read
  split at read
  · exact field read
  · next k kind =>
    split at read
    · exact field read
    · have left : c.current.kind ≠ .eof := by simp [kind]
      have directive {k : Keyword} (kind : c.current.kind = .keyword k)
          (isFeature : k ∈ [.partition, .ttl, .fts, .rls, .policy, .auditable, .softDelete])
          (read : .ofParsed .directive (directiveLine src k c) = r) :
          ∃ item, r.item = some item ∧ LineSays src c.rest item := by
        obtain ⟨d, after, returns, item⟩ := LineResult.returns_of_ofParsed read h
        exact ⟨_, item, .directive (featureSays_of_directiveLine returns kind isFeature)⟩
      split at read
      · obtain ⟨k, after, returns, item⟩ := LineResult.returns_of_ofParsed read h
        obtain ⟨ts, columns, rest, said, key⟩ := keySays_of_keyLine returns left
        exact ⟨_, item, .key (by rw [rest, key]; exact .primary kind said)⟩
      · obtain ⟨k, after, returns, item⟩ := LineResult.returns_of_ofParsed read h
        obtain ⟨ts, columns, rest, said, key⟩ := keySays_of_keyLine returns left
        exact ⟨_, item, .key (by rw [rest, key]; exact .unique kind said)⟩
      · obtain ⟨k, after, returns, item⟩ := LineResult.returns_of_ofParsed read h
        exact ⟨_, item, .key (keySays_of_checkLine returns kind)⟩
      all_goals first | exact directive kind (by simp) read | exact field read
  · subst read
    cases h

end Readers

end Document

end ErdSql
