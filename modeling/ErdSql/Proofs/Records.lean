import ErdSql.Cache.Record
import ErdSql.Proofs.Encoding
import ErdSql.Proofs.JsonText

/-!
# Kept results as text

An entry that can be read back from its file is the one that was written. Numbers of more than 64 bits and
years of more than four digits are written too, but not read, so a file may as well count as no entry.

* `Cache.Leads`: what the members of an object make of a value.
* `Cache.Record.entry_of_read?_text`: a record is read with the entry that it was written with.
-/

namespace ErdSql.Cache

/-! ### Members one after another -/

/-- Members that lead from one value to another, if they can be read. -/
def Leads {α : Type} (step : α → String → Json → Option α) (ms : List (String × Json)) (a a' : α) : Prop :=
  ∀ b, membersOver step a (.obj ms) = some b → b = a'

namespace Leads

variable {α : Type} {step : α → String → Json → Option α} {a a'' : α} {a' : α}

lemma nil : Leads step [] a a := fun _ h => (Option.some.inj h).symm

lemma append {ms ns : List (String × Json)} (a' : α) (h : Leads step ms a a') (h' : Leads step ns a' a'') :
    Leads step (ms ++ ns) a a'' := by
  intro b hb
  rw [membersOver, List.foldlM_append] at hb
  obtain ⟨c, first, rest⟩ := Option.bind_eq_some_iff.1 hb
  exact h' b (h c first ▸ rest)

lemma cons {key : String} {v : Json} {ms : List (String × Json)} (a' : α)
    (h : ∀ b, step a key v = some b → b = a') (h' : Leads step ms a' a'') :
    Leads step ((key, v) :: ms) a a'' := by
  intro b hb
  rw [membersOver, List.foldlM_cons] at hb
  obtain ⟨c, first, rest⟩ := Option.bind_eq_some_iff.1 hb
  exact h' b (h c first ▸ rest)

lemma singleton {key : String} {v : Json} (h : ∀ b, step a key v = some b → b = a') :
    Leads step [(key, v)] a a' :=
  cons a' h nil

/-- A member that may be left out. -/
lemma of_isEmpty {c : Bool} {key : String} {v : Json} (absent : c = true → a' = a)
    (present : ∀ b, step a key v = some b → b = a') :
    Leads step (if c then [] else [(key, v)]) a a' := by
  cases c with
  | true => exact absent rfl ▸ nil
  | false => exact singleton present

lemma textMember {key value : String} (absent : value = "" → a' = a)
    (present : ∀ b, step a key (.str value) = some b → b = a') :
    Leads step (Diagnostic.textMember key value) a a' :=
  of_isEmpty (fun h => absent (by simpa using h)) present

lemma intMember {key : String} {value : Int} (absent : value = 0 → a' = a)
    (present : ∀ b, step a key (.int value) = some b → b = a') :
    Leads step (Diagnostic.intMember key value) a a' :=
  of_isEmpty (fun h => absent (by simpa using h)) present

end Leads

/-! ### Values -/

lemma eq_of_intOver {before n m : Int} (h : intOver before (.int n) = some m) : m = n := by
  rw [intOver] at h
  split at h
  · exact (Option.some.inj h).symm
  · cases h

lemma eq_of_locationOver {l l' : Location}
    (h : locationOver ⟨"", 0, 0⟩ (Diagnostic.locationJson l) = some l') : l' = l := by
  obtain ⟨path, line, column⟩ := l
  rw [locationOver, Diagnostic.locationJson] at h
  refine Leads.append ⟨path, line, 0⟩ (Leads.append ⟨path, 0, 0⟩ (Leads.textMember ?_ ?_)
    (Leads.intMember ?_ ?_)) (Leads.intMember ?_ ?_) l' h
  · rintro rfl
    rfl
  · intro b hb
    cases hb
    rfl
  · rintro rfl
    rfl
  · intro b hb
    obtain ⟨n, hn, rfl⟩ := Option.map_eq_some_iff.1 hb
    rw [eq_of_intOver hn]
  · rintro rfl
    rfl
  · intro b hb
    obtain ⟨n, hn, rfl⟩ := Option.map_eq_some_iff.1 hb
    rw [eq_of_intOver hn]

lemma eq_of_relatedOver {r r' : RelatedInfo} (h : relatedOver ⟨⟨"", 0, 0⟩, ""⟩
    (.obj [("location", Diagnostic.locationJson r.location), ("message", .str r.message)]) = some r') :
    r' = r := by
  rw [relatedOver] at h
  refine Leads.cons ⟨r.location, ""⟩ ?_ (Leads.singleton ?_) r' h
  · intro b hb
    obtain ⟨l, hl, rfl⟩ := Option.map_eq_some_iff.1 hb
    rw [eq_of_locationOver hl]
  · intro b hb
    cases hb
    rfl

/-- What is filled into a list without values is what its values are read as. -/
lemma eq_of_refill {α β : Type} {blank : α} {item : α → Json → Option α} {f : β → Json} {g : β → α}
    (h : ∀ x a, item blank (f x) = some a → a = g x) {xs : List β} {s : Slots α}
    (hs : Slots.refill blank item {} (.arr (xs.map f)) = some s) : s = ⟨xs.map g, []⟩ := by
  have filled {xs : List β} {as : List α} (hs : Slots.fill blank item [] (xs.map f) = some as) :
      as = xs.map g := by
    induction xs generalizing as with
    | nil => exact (Option.some.inj hs).symm
    | cons x xs ih =>
      obtain ⟨a, first, hs⟩ := Option.bind_eq_some_iff.1 hs
      obtain ⟨rest, others, hs⟩ := Option.bind_eq_some_iff.1 hs
      cases hs
      rw [List.map_cons, h x a first, ih others]
  cases xs with
  | nil => exact (Option.some.inj hs).symm
  | cons x xs =>
    obtain ⟨shown, all, rfl⟩ := Option.map_eq_some_iff.1 hs
    have shown : shown = (x :: xs).map g := filled all
    rw [shown]
    simp

lemma severity_ofText_name (s : Severity) : Severity.ofText s.name = s := by
  cases s <;> decide

/-- A diagnostic as it is while it is read, when all of it has been read. -/
def draftOf (d : Diagnostic) : DiagnosticDraft :=
  ⟨{ d with notes := [], related := [] }, ⟨d.notes, []⟩, ⟨d.related, []⟩⟩

lemma eq_of_refill_toJson {d : Diagnostic} {draft : DiagnosticDraft}
    (h : ({} : DiagnosticDraft).refill d.toJson = some draft) : draft = draftOf d := by
  obtain ⟨severity, code, message, entity, field, location, notes, related⟩ := d
  rw [DiagnosticDraft.refill, Diagnostic.toJson] at h
  refine Leads.append ⟨⟨severity, code, message, entity, field, location, [], []⟩, ⟨notes, []⟩, {}⟩
    (Leads.append ⟨⟨severity, code, message, entity, field, location, [], []⟩, {}, {}⟩
    (Leads.append ⟨⟨severity, code, message, entity, field, ⟨"", 0, 0⟩, [], []⟩, {}, {}⟩
    (Leads.append ⟨⟨severity, code, message, entity, "", ⟨"", 0, 0⟩, [], []⟩, {}, {}⟩
    (Leads.append ⟨⟨severity, code, message, "", "", ⟨"", 0, 0⟩, [], []⟩, {}, {}⟩
    (Leads.append ⟨⟨severity, code, "", "", "", ⟨"", 0, 0⟩, [], []⟩, {}, {}⟩
    (Leads.append ⟨⟨severity, "", "", "", "", ⟨"", 0, 0⟩, [], []⟩, {}, {}⟩
      (Leads.singleton ?_) (Leads.textMember ?_ ?_)) (Leads.singleton ?_)) (Leads.textMember ?_ ?_))
      (Leads.textMember ?_ ?_)) (Leads.singleton ?_)) (Leads.of_isEmpty ?_ ?_)) (Leads.of_isEmpty ?_ ?_)
      draft h
  · intro b hb
    cases hb
    rw [severity_ofText_name]
    rfl
  · rintro rfl
    rfl
  · intro b hb
    cases hb
    rfl
  · intro b hb
    cases hb
    rfl
  · rintro rfl
    rfl
  · intro b hb
    cases hb
    rfl
  · rintro rfl
    rfl
  · intro b hb
    cases hb
    rfl
  · intro b hb
    obtain ⟨base, hbase, rfl⟩ := Option.map_eq_some_iff.1 hb
    obtain ⟨l, hl, rfl⟩ := Option.map_eq_some_iff.1 hbase
    rw [eq_of_locationOver hl]
  · intro none
    have none : notes = [] := List.isEmpty_iff.1 none
    rw [none]
  · intro b hb
    obtain ⟨s, hs, rfl⟩ := Option.map_eq_some_iff.1 hb
    have read : s = ⟨notes.map id, []⟩ := eq_of_refill (fun _ _ h => (Option.some.inj h).symm) hs
    rw [read, List.map_id]
  · intro none
    have none : related = [] := List.isEmpty_iff.1 none
    rw [none]
    rfl
  · intro b hb
    obtain ⟨s, hs, rfl⟩ := Option.map_eq_some_iff.1 hb
    have read : s = ⟨related.map id, []⟩ := eq_of_refill (fun _ _ => eq_of_relatedOver) hs
    rw [read, List.map_id]
    rfl

/-! ### Entries and records -/

/-- A record as it is while it is read, when all of an entry has been read. -/
def Draft.withEntry (d : Draft) (e : Entry) : Draft :=
  ⟨{ d.record with entry := { e with diagnostics := [] } }, ⟨e.diagnostics.map draftOf, []⟩⟩

lemma Draft.result_withEntry (d : Draft) (e : Entry) : (d.withEntry e).result.entry = e := by
  have all : (e.diagnostics.map draftOf).map DiagnosticDraft.diagnostic = e.diagnostics := by
    rw [List.map_map]
    exact (List.map_congr_left fun _ _ => rfl).trans (List.map_id _)
  rw [Draft.result, Draft.withEntry]
  simp only [all]

lemma eq_of_entryOver_toJson {record : Record} (blank : record.entry = ⟨"", [], false, false⟩) {e : Entry}
    {d : Draft} (h : Draft.entryOver ⟨record, {}⟩ e.toJson = some d) : d = Draft.withEntry ⟨record, {}⟩ e := by
  obtain ⟨version, created, entry⟩ := record
  obtain ⟨sql, diagnostics, generated, valid⟩ := e
  obtain rfl : entry = ⟨"", [], false, false⟩ := blank
  rw [Draft.entryOver, Entry.toJson] at h
  refine Leads.append ⟨⟨version, created, ⟨sql, [], false, false⟩⟩, ⟨diagnostics.map draftOf, []⟩⟩
    (Leads.append ⟨⟨version, created, ⟨sql, [], false, false⟩⟩, {}⟩ (Leads.singleton ?_)
      (Leads.of_isEmpty ?_ ?_))
    (Leads.cons ⟨⟨version, created, ⟨sql, [], generated, false⟩⟩, ⟨diagnostics.map draftOf, []⟩⟩ ?_
      (Leads.singleton ?_)) d h
  · intro b hb
    cases hb
    rfl
  · intro none
    have none : diagnostics = [] := List.isEmpty_iff.1 none
    rw [none]
    rfl
  · intro b hb
    obtain ⟨s, hs, rfl⟩ := Option.map_eq_some_iff.1 hb
    rw [eq_of_refill (fun _ _ => eq_of_refill_toJson) hs]
  · intro b hb
    cases hb
    rfl
  · intro b hb
    cases hb
    rfl

/-- A record is read with the entry that it was written with. -/
lemma entry_of_ofJson? {version : Int} {created : Instant} {e : Entry} {r : Record}
    (h : Record.ofJson? (.obj [("version", .int version), ("created_at", .str created.text),
      ("entry", e.toJson)]) = some r) : r.entry = e := by
  rw [Record.ofJson?] at h
  obtain ⟨d, members, rfl⟩ := Option.map_eq_some_iff.1 h
  have version : Text.spells "version" "version" = true := by decide
  have created : Text.spells "version" "created_at" = false ∧ Text.spells "created_at" "created_at" = true := by
    decide
  have entry : Text.spells "version" "entry" = false ∧ Text.spells "created_at" "entry" = false ∧
      Text.spells "entry" "entry" = true := by
    decide
  simp only [membersOver, List.foldlM_cons, List.foldlM_nil, version, created.1, created.2, entry.1,
    entry.2.1, entry.2.2, if_true, if_false, Bool.false_eq_true, Option.bind_eq_bind, Option.pure_def] at members
  -- whatever the version and the moment are read as
  obtain ⟨d₁, first, members⟩ := Option.bind_eq_some_iff.1 members
  obtain ⟨r₁, read₁, rfl⟩ := Option.map_eq_some_iff.1 first
  obtain ⟨v, -, rfl⟩ := Option.map_eq_some_iff.1 read₁
  obtain ⟨d₂, second, members⟩ := Option.bind_eq_some_iff.1 members
  obtain ⟨r₂, read₂, rfl⟩ := Option.map_eq_some_iff.1 second
  obtain ⟨t, -, rfl⟩ := Option.map_eq_some_iff.1 read₂
  rw [Option.bind_fun_some] at members
  have whole := eq_of_entryOver_toJson rfl members
  rw [whole, Draft.result_withEntry]

/-! ### Texts -/

lemma readable_ite {c : Bool} {key : String} {j : Json} (h : j.Readable) :
    ∀ m ∈ (if c then [] else [(key, j)] : List (String × Json)), m.2.Readable := by
  cases c with
  | true => nofun
  | false => simpa using h

lemma readable_location (l : Location) : (Diagnostic.locationJson l).Readable := by
  refine Json.readable_obj fun m hm => ?_
  simp only [List.mem_append] at hm
  rcases hm with (hm | hm) | hm
  · exact readable_ite (Json.readable_str _) m hm
  · exact readable_ite (Json.readable_int _) m hm
  · exact readable_ite (Json.readable_int _) m hm

lemma readable_diagnostic (d : Diagnostic) : d.toJson.Readable := by
  have notes : (Json.arr (d.notes.map .str)).Readable := by
    refine Json.readable_arr fun j hj => ?_
    obtain ⟨s, -, rfl⟩ := List.mem_map.1 hj
    exact Json.readable_str s
  have related : (Json.arr (d.related.map fun r =>
      .obj [("location", Diagnostic.locationJson r.location), ("message", .str r.message)])).Readable := by
    refine Json.readable_arr fun j hj => ?_
    obtain ⟨r, -, rfl⟩ := List.mem_map.1 hj
    refine Json.readable_obj fun m hm => ?_
    rcases List.mem_cons.1 hm with rfl | hm
    · exact readable_location _
    · rw [List.mem_singleton.1 hm]
      exact Json.readable_str _
  refine Json.readable_obj fun m hm => ?_
  simp only [List.mem_append, List.mem_singleton] at hm
  rcases hm with ((((((rfl | hm) | rfl) | hm) | hm) | rfl) | hm) | hm
  · exact Json.readable_str _
  · exact readable_ite (Json.readable_str _) m hm
  · exact Json.readable_str _
  · exact readable_ite (Json.readable_str _) m hm
  · exact readable_ite (Json.readable_str _) m hm
  · exact readable_location _
  · exact readable_ite notes m hm
  · exact readable_ite related m hm

lemma readable_entry (e : Entry) : e.toJson.Readable := by
  have diagnostics : (Json.arr (e.diagnostics.map (·.toJson))).Readable := by
    refine Json.readable_arr fun j hj => ?_
    obtain ⟨d, -, rfl⟩ := List.mem_map.1 hj
    exact readable_diagnostic d
  refine Json.readable_obj fun m hm => ?_
  simp only [List.mem_append, List.mem_cons, List.not_mem_nil, or_false] at hm
  rcases hm with (rfl | hm) | rfl | rfl
  · exact Json.readable_str _
  · exact readable_ite diagnostics m hm
  · exact Json.readable_bool _
  · exact Json.readable_bool _

/-- What a file gives back that a record was written to is the entry of the record. -/
lemma entry_of_read?_text {r r' : Record} (h : Record.read? (Text.bytes r.text) = some r') :
    r'.entry = r.entry := by
  have readable : (Json.obj [("version", .int r.version), ("created_at", .str r.created.text),
      ("entry", r.entry.toJson)]).Readable := by
    refine Json.readable_obj fun m hm => ?_
    simp only [List.mem_cons, List.not_mem_nil, or_false] at hm
    rcases hm with rfl | rfl | rfl
    · exact Json.readable_int _
    · exact Json.readable_str _
    · exact readable_entry _
  have text : Text.ofBytes (Text.bytes r.text) = r.text := by
    rw [Text.ofBytes, Text.decode?_bytes, Option.getD_some, String.ofList_toList]
  rw [Record.read?, text, Record.text, Json.read?_compact readable] at h
  obtain ⟨read, -⟩ := Option.filter_eq_some_iff.1 h
  exact entry_of_ofJson? read

end ErdSql.Cache
