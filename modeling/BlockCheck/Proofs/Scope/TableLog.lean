import BlockCheck.Proofs.Scope.Entries
import BlockCheck.Scope.Symbol

/-!
# Tables and their logs

A table of variables is changed by inserts and by marks (`TableChange`), and a log of such changes tells all that is in
the table. The entries are the inserts that succeed, in their order, each with the marks since then: this is said of
one change after the other, so it holds of every log (`entries_run`). An insert succeeds unless the log has one of the
same name already (`contains_table`). So a name stands for its first insert with the marks since then
(`find_table_eq_ok`), and an entry keeps its place and all but its mark (`entry?_run`).
-/

namespace BlockCheck

/-! ## Changes -/

/-- A change of a table of variables. -/
inductive TableChange
  | insert (name : String) (v : Variable)
  /-- Mark the variable initialized for which the name stands. -/
  | mark (name : String)
  deriving DecidableEq, Repr

namespace TableChange

/-- The changed table, or why the change fails. -/
def perform (t : SymbolTable Variable) : TableChange → Except SymbolFault (SymbolTable Variable)
  | insert name v => t.insert name v
  | mark name => t.update name .markInitialized

/-- The table after a change. One that fails leaves the table as it was. -/
def apply (t : SymbolTable Variable) (change : TableChange) : SymbolTable Variable :=
  (change.perform t).toOption.getD t

/-- The table after all changes of a log. -/
def run (t : SymbolTable Variable) (log : List TableChange) : SymbolTable Variable := log.foldl apply t

/-- The table that a log makes of the empty one. -/
def table (log : List TableChange) : SymbolTable Variable := run {} log

/-! ## What a log tells -/

/-- There is an insert of the name in the log. -/
def Inserts (log : List TableChange) (name : String) : Prop := ∃ v, insert name v ∈ log

/-- The entry after the changes of a log: the name, the type and the finality are the same, and the variable is
initialized if it was before or the log has a mark of its name. -/
def marked (log : List TableChange) (e : String × Variable) : String × Variable :=
  (e.1, { e.2 with isInitialized := e.2.isInitialized || decide (mark e.1 ∈ log) })

/-- An insert that has succeeded. -/
structure Insertion where
  name : String
  inserted : Variable
  /-- The changes since then. -/
  since : List TableChange
  deriving DecidableEq, Repr

/-- The entry that has become of the insert. -/
def Insertion.entry (i : Insertion) : String × Variable := marked i.since (i.name, i.inserted)

/-- The inserts of a log that succeed, in their order. -/
def insertions (t : SymbolTable Variable) : List TableChange → List Insertion
  | [] => []
  | insert name v :: since =>
    match t.insert name v with
    | .ok t' => ⟨name, v, since⟩ :: insertions t' since
    | .error _ => insertions t since
  | mark name :: since => insertions (apply t (mark name)) since

section Logs

variable {t : SymbolTable Variable} {log : List TableChange} {name : String} {v : Variable}

/-! ### One change -/

theorem apply_insert_of_new (h : t.contains name = false) : apply t (insert name v) = ⟨t.entries ++ [(name, v)]⟩ := by
  rw [apply, perform, SymbolTable.insert_eq_ok.2 ⟨h, rfl⟩]
  rfl

theorem apply_insert_of_contains (h : t.contains name = true) : apply t (insert name v) = t := by
  rw [apply, perform, SymbolTable.insert_eq_error.2 ⟨h, rfl⟩]
  rfl

/-- Where the name is missing there is nothing to mark. -/
theorem apply_mark : apply t (mark name) = t.modify name .markInitialized := by
  rw [apply, perform, SymbolTable.update]
  split
  · rfl
  · next h =>
    have hnone : t.get? name = none := SymbolTable.get?_eq_none.2 (SymbolTable.contains_eq_false.1 (by simpa using h))
    rw [SymbolTable.modify_of_get?_none _ hnone]
    rfl

theorem insertions_of_new (h : t.contains name = false) : insertions t (insert name v :: log) =
    ⟨name, v, log⟩ :: insertions (apply t (insert name v)) log := by
  rw [insertions, SymbolTable.insert_eq_ok.2 ⟨h, rfl⟩, apply_insert_of_new h]

theorem insertions_of_contains (h : t.contains name = true) :
    insertions t (insert name v :: log) = insertions t log := by
  rw [insertions, SymbolTable.insert_eq_error.2 ⟨h, rfl⟩]

/-- An insert succeeds as the first change of a log if its name is new, or it is one of the rest that succeed. -/
theorem mem_insertions_cons {i : Insertion} {change : TableChange} : i ∈ insertions t (change :: log) ↔
    (change = insert i.name i.inserted ∧ log = i.since ∧ t.contains i.name = false) ∨
      i ∈ insertions (apply t change) log := by
  cases change with
  | insert name v =>
    cases h : t.contains name with
    | false =>
      rw [insertions_of_new h, List.mem_cons]
      refine or_congr_left ⟨?_, ?_⟩
      · rintro rfl
        exact ⟨rfl, rfl, h⟩
      · rintro ⟨hchange, hsince, -⟩
        obtain ⟨other, w, since⟩ := i
        cases hchange
        cases hsince
        rfl
    | true =>
      rw [insertions_of_contains h, apply_insert_of_contains h]
      refine (or_iff_right ?_).symm
      rintro ⟨hchange, -, hnew⟩
      cases hchange
      cases h.symm.trans hnew
  | mark name => simp [insertions]

/-- A change adds the name that it inserts, unless it is there, and no other one. -/
theorem mem_names_apply (change : TableChange) :
    name ∈ (change.apply t).names ↔ name ∈ t.names ∨ ∃ v, change = insert name v := by
  cases change with
  | insert other v =>
    cases h : t.contains other with
    | false =>
      rw [apply_insert_of_new h, SymbolTable.names_insert (SymbolTable.insert_eq_ok.2 ⟨h, rfl⟩), List.mem_append]
      simp [eq_comm]
    | true =>
      rw [apply_insert_of_contains h]
      have hold : other ∈ t.names := SymbolTable.contains_eq_true.1 h
      refine ⟨.inl, fun hname => hname.elim id ?_⟩
      rintro ⟨w, hw⟩
      cases hw
      exact hold
  | mark other => simp [apply_mark]

theorem nodup_names_apply (h : t.names.Nodup) (change : TableChange) : (change.apply t).names.Nodup := by
  cases change with
  | insert name v =>
    cases hname : t.contains name with
    | false =>
      rw [apply_insert_of_new hname]
      exact SymbolTable.nodup_append_entry h hname v
    | true => rwa [apply_insert_of_contains hname]
  | mark name => rwa [apply_mark, SymbolTable.names_modify]

/-! ### Marks -/

theorem marked_nil : marked [] = id := by
  funext e
  simp [marked]

/-- An insert marks nothing. -/
theorem marked_insert : marked (insert name v :: log) = marked log := by
  funext e
  simp [marked]

theorem marked_mark (e : String × Variable) :
    marked (mark name :: log) e = marked log (if e.1 = name then (e.1, e.2.markInitialized) else e) := by
  by_cases h : e.1 = name <;> simp [marked, Variable.markInitialized, h]

/-- Marking a variable and then running a log is running the log with the mark in front. -/
theorem map_marked_modify : (t.modify name .markInitialized).entries.map (marked log) =
    t.entries.map (marked (mark name :: log)) := by
  rw [SymbolTable.modify, List.map_map]
  exact List.map_congr_left fun e _ => (marked_mark e).symm

theorem eq_marked_iff {u : Variable} : (name, u) = marked log (name, v) ↔
    u.type = v.type ∧ u.isFinal = v.isFinal ∧ (u.isInitialized = true ↔ v.isInitialized = true ∨ mark name ∈ log) := by
  obtain ⟨type, isFinal, isInitialized⟩ := u
  have hflag : isInitialized = (v.isInitialized || decide (mark name ∈ log)) ↔
      (isInitialized = true ↔ v.isInitialized = true ∨ mark name ∈ log) := by
    rw [Bool.eq_iff_iff, Bool.or_eq_true, decide_eq_true_iff]
  rw [marked, Prod.mk.injEq, and_iff_right rfl, Variable.mk.injEq]
  exact and_congr_right' (and_congr_right' hflag)

/-! ### Whole logs -/

/-- **What a log makes of a table**: the entries that were there stay in front, marked, and behind them stand the
inserts that succeed. -/
theorem entries_run (t : SymbolTable Variable) (log : List TableChange) :
    (run t log).entries = t.entries.map (marked log) ++ (insertions t log).map Insertion.entry := by
  induction log generalizing t with
  | nil => simp [run, insertions, marked_nil]
  | cons change log ih =>
    have hrun := ih (apply t change)
    rw [run, List.foldl_cons, ← run, hrun]
    cases change with
    | insert name v =>
      rw [marked_insert]
      cases h : t.contains name with
      | false =>
        rw [insertions_of_new h, apply_insert_of_new h, List.map_append, List.append_assoc]
        rfl
      | true => rw [insertions_of_contains h, apply_insert_of_contains h]
    | mark name => rw [insertions, apply_mark, map_marked_modify]

theorem mem_names_run : name ∈ (run t log).names ↔ name ∈ t.names ∨ Inserts log name := by
  induction log generalizing t with
  | nil => simp [run, Inserts]
  | cons change log ih =>
    rw [run, List.foldl_cons, ← run, ih, mem_names_apply, or_assoc]
    simp [Inserts, exists_or, eq_comm]

theorem nodup_names_run (h : t.names.Nodup) (log : List TableChange) : (run t log).names.Nodup := by
  induction log generalizing t with
  | nil => exact h
  | cons change log ih => exact ih (nodup_names_apply h change)

/-- **An entry keeps its place**, whatever is changed later. -/
theorem entry?_run {n : Nat} {e : String × Variable} (h : t.entry? n = some e) (log : List TableChange) :
    SymbolTable.entry? (run t log) n = some (marked log e) := by
  have hold : t.entries[n]? = some e := h
  have hentry : (t.entries.map (marked log))[n]? = some (marked log e) := by
    rw [List.getElem?_map, hold]
    rfl
  show (run t log).entries[n]? = some (marked log e)
  rw [entries_run, List.getElem?_append_left (List.getElem?_eq_some_iff.1 hentry).1, hentry]

/-- The successful inserts are those of a name that is new when their turn comes. -/
theorem mem_insertions {i : Insertion} : i ∈ insertions t log ↔ ∃ earlier,
    log = earlier ++ insert i.name i.inserted :: i.since ∧ (run t earlier).contains i.name = false := by
  induction log generalizing t with
  | nil => simp [insertions]
  | cons change log ih =>
    rw [mem_insertions_cons, ih]
    constructor
    · rintro (⟨rfl, rfl, hnew⟩ | ⟨earlier, rfl, hnew⟩)
      · exact ⟨[], rfl, hnew⟩
      · exact ⟨change :: earlier, rfl, hnew⟩
    · rintro ⟨earlier, hlog, hnew⟩
      cases earlier with
      | nil =>
        cases hlog
        exact .inl ⟨rfl, rfl, hnew⟩
      | cons first earlier =>
        cases hlog
        exact .inr ⟨earlier, rfl, hnew⟩

end Logs

/-! ## The table of a log -/

section Tables

variable {log : List TableChange} {name : String} {u v : Variable}

theorem nodup_names_table (log : List TableChange) : (table log).names.Nodup :=
  nodup_names_run (t := {}) List.nodup_nil log

theorem table_append (log later : List TableChange) : table (log ++ later) = run (table log) later :=
  List.foldl_append

/-- A name is in the table if it has ever been inserted. -/
theorem contains_table : (table log).contains name = true ↔ Inserts log name := by
  rw [SymbolTable.contains_eq_true, table, mem_names_run]
  exact or_iff_right List.not_mem_nil

theorem entries_table (log : List TableChange) : (table log).entries = (insertions {} log).map Insertion.entry :=
  entries_run {} log

theorem find_eq_ok_iff_mem : (table log).find name = .ok u ↔ (name, u) ∈ (table log).entries := by
  rw [SymbolTable.find_eq_ok, SymbolTable.get?_eq_some_iff (nodup_names_table log)]

/-- **A name stands for its first insert with the marks since then.** -/
theorem find_table_eq_ok : (table log).find name = .ok u ↔ ∃ earlier v later,
    log = earlier ++ insert name v :: later ∧ ¬ Inserts earlier name ∧ (name, u) = marked later (name, v) := by
  have hnew : ∀ earlier, (run {} earlier).contains name = false ↔ ¬ Inserts earlier name := fun earlier => by
    rw [← contains_table, Bool.not_eq_true]
    rfl
  rw [find_eq_ok_iff_mem, entries_table, List.mem_map]
  constructor
  · rintro ⟨⟨other, v, later⟩, hmem, hentry⟩
    cases congrArg Prod.fst hentry
    obtain ⟨earlier, hlog, hfresh⟩ := mem_insertions.1 hmem
    exact ⟨earlier, v, later, hlog, (hnew earlier).1 hfresh, hentry.symm⟩
  · rintro ⟨earlier, v, later, hlog, hfresh, hentry⟩
    exact ⟨⟨name, v, later⟩, mem_insertions.2 ⟨earlier, hlog, (hnew earlier).2 hfresh⟩, hentry.symm⟩

end Tables

/-- **A table is the log of its inserts.** The entries of the table that a log makes of the empty one are the inserts
that succeed, in their order, and no name is listed twice. An insert fails if the log has an insert of its name before,
and then it leaves the table as it is. What a name stands for is what its entry says, with the type and the finality
that were inserted first, and initialized if this was inserted or there is a mark since then; the table contains the
names of its entries. And what is found at a place is the entry there, which stays there with whatever is changed later
and can only be marked. -/
theorem table_follows_log (log : List TableChange) :
    ((table log).entries = (insertions {} log).map Insertion.entry ∧ (table log).names.Nodup) ∧
      (∀ name v,
        ((∃ f, (table log).insert name v = .error f) ↔ Inserts log name) ∧
        ∀ f, (table log).insert name v = .error f →
          f = .alreadyDeclared name ∧ table (log ++ [insert name v]) = table log) ∧
      (∀ name,
        ((table log).contains name = true ↔ ∃ u, (name, u) ∈ (table log).entries) ∧
        ((table log).contains name = false ↔ (table log).find name = .error (.notFound name)) ∧
        ∀ u, ((table log).find name = .ok u ↔ (name, u) ∈ (table log).entries) ∧
          ((table log).find name = .ok u ↔ ∃ earlier v later, log = earlier ++ insert name v :: later ∧
            ¬ Inserts earlier name ∧ u.type = v.type ∧ u.isFinal = v.isFinal ∧
            (u.isInitialized = true ↔ v.isInitialized = true ∨ mark name ∈ later))) ∧
      ∀ n, SymbolTable.entry? (table log) n = (table log).entries[n]? ∧
        ∀ e later, SymbolTable.entry? (table log) n = some e →
          SymbolTable.entry? (table (log ++ later)) n = some (marked later e) := by
  refine ⟨⟨entries_table log, nodup_names_table log⟩, fun name v => ⟨?_, ?_⟩, fun name => ⟨?_, ?_, fun u => ⟨?_, ?_⟩⟩,
    fun n => ⟨rfl, fun e later h => ?_⟩⟩
  · simp only [SymbolTable.insert_eq_error, contains_table, exists_eq_right]
  · intro f h
    obtain ⟨hname, rfl⟩ := SymbolTable.insert_eq_error.1 h
    refine ⟨rfl, ?_⟩
    rw [table_append]
    exact apply_insert_of_contains hname
  · rw [SymbolTable.contains_eq_true, SymbolTable.mem_names]
  · rw [SymbolTable.find_eq_error, and_iff_left rfl]
  · exact find_eq_ok_iff_mem
  · simp only [find_table_eq_ok, eq_marked_iff]
  · rw [table_append]
    exact entry?_run h later

/-- A variable is inserted, and marked once before and once behind it. A second insert of its name, with another type
and a value, fails and leaves the table as it is, and so the name stands for the first one, marked. The entry behind it
stays where it is while there are more inserts, and is marked. -/
theorem table_follows_log_of_redeclaration : ∃ (log later : List TableChange) (v : Variable), Inserts log "a" ∧
    (∃ f, (table log).insert "a" v = .error f) ∧ table (log ++ [insert "a" v]) = table log ∧
      (table log).find "a" = .ok (.initialized .int) ∧
      SymbolTable.entry? (table log) 1 = some ("b", .uninitialized .char) ∧
      SymbolTable.entry? (table (log ++ later)) 1 = some ("b", .initialized .char) := by
  let v : Variable := .initialized .double
  let log : List TableChange :=
    [mark "a", insert "a" (.uninitialized .int), insert "b" (.uninitialized .char), insert "a" v, mark "a"]
  let later : List TableChange := [insert "c" v, mark "b"]
  obtain ⟨-, hinsert, hfind, hplace⟩ := table_follows_log log
  have hinserts : Inserts log "a" := ⟨v, by decide⟩
  obtain ⟨f, hf⟩ := (hinsert "a" v).1.2 hinserts
  have hfirst : (table log).find "a" = .ok (.initialized .int) := ((hfind "a").2.2 _).2.2
    ⟨[mark "a"], .uninitialized .int, [insert "b" (.uninitialized .char), insert "a" v, mark "a"], rfl,
      by simp [Inserts], rfl, rfl, by decide⟩
  have hentry : SymbolTable.entry? (table log) 1 = some ("b", .uninitialized .char) := by decide
  exact ⟨log, later, v, hinserts, ⟨f, hf⟩, ((hinsert "a" v).2 f hf).2, hfirst, hentry, (hplace 1).2 _ later hentry⟩

end TableChange

end BlockCheck
