import BlockCheck.Scope.Table
import Mathlib.Data.List.Nodup

/-!
# Entries of symbol tables

What the operations on a table do to its entries and to what its names stand for. A name that is new is appended
(`insert_eq_ok`), and a change of what a name stands for leaves every other entry as it is (`get?_modify`,
`modify_of_get?_none`). In a table that lists no name twice a name stands for what its one entry says
(`get?_eq_some_iff`), and a change is a change of this entry (`exists_entry`).
-/

namespace BlockCheck

namespace SymbolTable

variable {α : Type} {t t' : SymbolTable α} {name other : String} {a b : α}

/-! ## Names -/

theorem contains_eq_true : t.contains name = true ↔ name ∈ t.names := List.contains_iff_mem

theorem contains_eq_false : t.contains name = false ↔ name ∉ t.names := by
  rw [Bool.eq_false_iff, ne_eq, contains_eq_true]

theorem get?_eq_none : t.get? name = none ↔ name ∉ t.names := by
  rw [← contains_eq_false, ← isSome_get?, Option.isSome_eq_false_iff, Option.isNone_iff_eq_none]

theorem mem_of_get? (h : t.get? name = some a) : (name, a) ∈ t.entries := by
  obtain ⟨before, after, hentries, -⟩ := List.lookup_eq_some_iff.1 h
  rw [hentries]
  exact List.mem_append_right _ List.mem_cons_self

theorem mem_names : name ∈ t.names ↔ ∃ a, (name, a) ∈ t.entries := by
  simp [names]

theorem find_eq_ok : t.find name = .ok a ↔ t.get? name = some a := by
  unfold find
  cases t.get? name <;> simp

theorem find_eq_error {f : SymbolFault} : t.find name = .error f ↔ t.contains name = false ∧ f = .notFound name := by
  unfold find
  rw [← isSome_get?]
  cases t.get? name <;> simp [eq_comm]

/-! ## Declaring -/

theorem insert_eq_ok : t.insert name a = .ok t' ↔ t.contains name = false ∧ t' = ⟨t.entries ++ [(name, a)]⟩ := by
  unfold insert
  split
  · next h => simp [h]
  · next h => simp [Bool.eq_false_iff.2 h, eq_comm]

theorem insert_eq_error {f : SymbolFault} :
    t.insert name a = .error f ↔ t.contains name = true ∧ f = .alreadyDeclared name := by
  unfold insert
  split
  · next h => simp [h, eq_comm]
  · next h => simp [h]

/-- A name is new after another one is declared if it was new before. -/
theorem contains_append_entry : (SymbolTable.mk (t.entries ++ [(name, a)])).contains other = false ↔
    t.contains other = false ∧ other ≠ name := by
  rw [contains_eq_false, contains_eq_false, names, List.map_append, List.mem_append, not_or, List.map_singleton,
    List.mem_singleton, names]

theorem nodup_append_entry (h : t.names.Nodup) (hfresh : t.contains name = false) (a : α) :
    (SymbolTable.mk (t.entries ++ [(name, a)])).names.Nodup := by
  have hnew : name ∉ t.names := contains_eq_false.1 hfresh
  rw [names_insert (insert_eq_ok.2 ⟨hfresh, rfl⟩)]
  exact List.nodup_append'.2 ⟨h, List.nodup_singleton name, List.disjoint_singleton.2 hnew⟩

theorem get?_of_insert (h : t.insert name a = .ok t') (hb : t.get? other = some b) : t'.get? other = some b := by
  obtain ⟨-, rfl⟩ := insert_eq_ok.1 h
  rw [get?] at hb ⊢
  rw [List.lookup_append, hb]
  rfl

/-- A name that was new stands for what is declared. -/
theorem get?_append_entry (h : t.contains name = false) :
    (SymbolTable.mk (t.entries ++ [(name, a)])).get? name = some a := by
  have hnone : t.entries.lookup name = none := get?_eq_none.2 (contains_eq_false.1 h)
  rw [get?, List.lookup_append, hnone]
  simp

/-! ## Changing what a name stands for -/

theorem get?_modify (f : α → α) (h : t.get? name = some a) (other : String) :
    (t.modify other f).get? name = some (if name = other then f a else a) := by
  obtain ⟨entries⟩ := t
  simp only [get?, modify] at h ⊢
  induction entries with
  | nil => cases h
  | cons e entries ih =>
    -- Changing an entry does not change its name.
    have hname : (if e.1 = other then (e.1, f e.2) else e).1 = e.1 := by split <;> rfl
    rw [List.lookup_cons] at h
    rw [List.map_cons, List.lookup_cons, hname]
    cases hfound : name == e.1 with
    | false =>
      rw [hfound] at h
      exact ih h
    | true =>
      rw [hfound] at h
      cases h
      rw [beq_iff_eq.1 hfound]
      show some (if e.1 = other then (e.1, f e.2) else e).2 = _
      split <;> rfl

/-- Changing what a name stands for changes nothing if the name is not there. -/
theorem modify_of_get?_none (f : α → α) (h : t.get? name = none) : t.modify name f = t := by
  have hname := get?_eq_none.1 h
  have hsame : t.entries.map (fun e => if e.1 = name then (e.1, f e.2) else e) = t.entries.map id :=
    List.map_congr_left fun e he => if_neg fun heq : e.1 = name => hname (heq ▸ List.mem_map_of_mem he)
  rw [modify, hsame, List.map_id]

/-! ## Tables without repetition -/

/-- A name of a table without repetition stands in one place, and changing what it stands for changes this place. -/
theorem exists_entry (h : t.names.Nodup) (hget : t.get? name = some a) : ∃ before after,
    t.entries = before ++ (name, a) :: after ∧ name ∉ before.map Prod.fst ∧ name ∉ after.map Prod.fst ∧
      ∀ f, (t.modify name f).entries = before ++ (name, f a) :: after := by
  obtain ⟨entries⟩ := t
  obtain ⟨before, after, rfl, hbefore⟩ := List.lookup_eq_some_iff.1 hget
  have hnodup : (before.map Prod.fst ++ name :: after.map Prod.fst).Nodup := by simpa [names] using h
  obtain ⟨-, hafter, hdisjoint⟩ := List.nodup_append.1 hnodup
  have hin : name ∉ before.map Prod.fst := fun hmem => hdisjoint name hmem name List.mem_cons_self rfl
  have hout : name ∉ after.map Prod.fst := (List.nodup_cons.1 hafter).1
  refine ⟨before, after, rfl, hin, hout, fun f => ?_⟩
  have hsame : ∀ es : List (String × α), name ∉ es.map Prod.fst →
      es.map (fun e => if e.1 = name then (e.1, f e.2) else e) = es := fun es hes =>
    congrArg entries (modify_of_get?_none (t := ⟨es⟩) f (get?_eq_none.2 hes))
  simp [modify, hsame before hin, hsame after hout]

/-- **In a table without repetition a name stands for what its entry says.** -/
theorem get?_eq_some_iff (h : t.names.Nodup) : t.get? name = some a ↔ (name, a) ∈ t.entries := by
  refine ⟨mem_of_get?, fun hmem => ?_⟩
  obtain ⟨before, after, hentries⟩ := List.append_of_mem hmem
  rw [names, hentries, List.map_append, List.map_cons] at h
  -- The entry is the first one of its name.
  have hbefore : name ∉ before.map Prod.fst := fun hin =>
    (List.nodup_append.1 h).2.2 name hin name List.mem_cons_self rfl
  refine List.lookup_eq_some_iff.2 ⟨before, after, hentries, fun e he => bne_iff_ne.2 fun heq => hbefore ?_⟩
  exact heq ▸ List.mem_map_of_mem he

end SymbolTable

end BlockCheck
