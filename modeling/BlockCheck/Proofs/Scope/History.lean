import BlockCheck.Proofs.Line.Declaring
import Mathlib.Data.List.Nodup

/-!
# The history of declarations

What happens to the scopes while a program is read, as a list of events: blocks are opened and closed, variables are
declared, and values are assigned (`Event`). The *past* of a point is the list of the events before it, the latest
first. It tells, by itself,

- which declarations are in scope (`frames`) and which of them a name stands for (`declaration?`). Declarations are
  numbered by the events before them, so two declarations of one name are two;
- on which lines a declaration has been given a value (`givenOn`): on its own line if it is declared with one, and on
  each line with an assignment to a name that stood for this declaration then, and not for one that hides it.

`Recorded past c` says that scopes are what the past makes of them. Every operation on scopes keeps it along with its
event, and it means that the flag of a variable says whether the declaration has been given a value
(`Recorded.truthful`).
-/

namespace BlockCheck

inductive Act
  | opened
  | closed
  /-- Declared, with a value or without one. The parameters of a method have the values of the call. -/
  | declared (name : String) (valued : Bool)
  | assigned (name : String)
  deriving DecidableEq, Repr

/-- Something that happens on a line. -/
structure Event where
  line : Nat
  act : Act
  deriving DecidableEq, Repr

/-! ## What the past tells -/

/-- Declarations in scope: for each open block, from the innermost one outwards, the names declared in it with the
numbers of their declarations. -/
abbrev Frames := List (List (String × Nat))

namespace Frames

/-- Leaves the innermost block. The global scope is never left. -/
def close : Frames → Frames
  | _ :: outer :: rest => outer :: rest
  | frames => frames

/-- Declares a name in the innermost block. -/
def declare (name : String) (id : Nat) : Frames → Frames
  | [] => []
  | frame :: rest => (frame ++ [(name, id)]) :: rest

end Frames

/-- The declarations in scope after an event with the number `id`. -/
def Act.enter (id : Nat) (frames : Frames) : Act → Frames
  | opened => [] :: frames
  | closed => frames.close
  | declared name _ => frames.declare name id
  | assigned _ => frames

/-- The declarations in scope. -/
def frames : List Event → Frames
  | [] => [[]]
  | e :: past => e.act.enter past.length (frames past)

/-- The declaration that a name stands for. -/
def declaration? (past : List Event) (name : String) : Option Nat := (frames past).findSome? (·.lookup name)

/-- The event gives declaration `d` a value. -/
def Act.gives (past : List Event) (d : Nat) : Act → Bool
  | declared _ valued => d = past.length && valued
  | assigned name => declaration? past name = some d
  | opened | closed => false

/-- The lines on which declaration `d` has been given a value. -/
def givenOn : List Event → Nat → List Nat
  | [], _ => []
  | e :: past, d => if e.act.gives past d then e.line :: givenOn past d else givenOn past d

/-- Declaration `d` has been given a value. -/
def isGiven (past : List Event) (d : Nat) : Bool := !(givenOn past d).isEmpty

section Past

variable {past : List Event} {e : Event} {d : Nat} {name : String}

theorem isGiven_cons : isGiven (e :: past) d = (e.act.gives past d || isGiven past d) := by
  unfold isGiven
  rw [givenOn]
  cases e.act.gives past d <;> rfl

theorem Act.gives_iff {act : Act} : act.gives past d = true ↔
    (∃ name, act = .declared name true ∧ d = past.length) ∨
      ∃ name, act = .assigned name ∧ declaration? past name = some d := by
  cases act with
  | declared name valued => simp [gives, and_comm]
  | assigned name => simp [gives]
  | opened | closed => simp [gives]

/-- **When a declaration has a value**: it has been declared with one, or a name that stood for it has been assigned
one. -/
theorem isGiven_iff : isGiven past d = true ↔ ∃ later e earlier, past = later ++ e :: earlier ∧
    ((∃ name, e.act = .declared name true ∧ d = earlier.length) ∨
      ∃ name, e.act = .assigned name ∧ declaration? earlier name = some d) := by
  simp only [← Act.gives_iff]
  induction past with
  | nil => exact ⟨nofun, fun ⟨later, _, _, h, _⟩ => by cases later <;> cases h⟩
  | cons e past ih =>
    rw [isGiven_cons, Bool.or_eq_true, ih]
    constructor
    · rintro (h | ⟨later, e', earlier, rfl, h⟩)
      · exact ⟨[], e, past, rfl, h⟩
      · exact ⟨e :: later, e', earlier, rfl, h⟩
    · rintro ⟨later, e', earlier, hpast, h⟩
      cases later with
      | nil => cases hpast; exact .inl h
      | cons _ later => cases hpast; exact .inr ⟨later, e', earlier, rfl, h⟩

theorem exists_givenOn_of_isGiven (h : isGiven past d = true) : ∃ line, line ∈ givenOn past d := by
  cases hgiven : givenOn past d with
  | nil =>
    rw [isGiven, hgiven] at h
    cases h
  | cons line lines => exact ⟨line, List.mem_cons_self⟩

/-- A value is given by one of the later events, or it has been given before them. -/
theorem mem_givenOn_append {later earlier : List Event} {line : Nat} (h : line ∈ givenOn (later ++ earlier) d) :
    (∃ e ∈ later, e.line = line) ∨ line ∈ givenOn earlier d := by
  induction later with
  | nil => exact .inr h
  | cons e later ih =>
    have hrest : line ∈ givenOn (later ++ earlier) d →
        (∃ e' ∈ e :: later, e'.line = line) ∨ line ∈ givenOn earlier d := fun h =>
      (ih h).imp_left fun ⟨e', he', hline⟩ => ⟨e', List.mem_cons_of_mem _ he', hline⟩
    rw [List.cons_append, givenOn] at h
    split at h
    · rcases List.mem_cons.1 h with rfl | h
      · exact .inl ⟨e, List.mem_cons_self, rfl⟩
      · exact hrest h
    · exact hrest h

/-- Values are given by events of the past. -/
theorem exists_event_of_givenOn {line : Nat} (h : line ∈ givenOn past d) : ∃ e ∈ past, e.line = line :=
  (mem_givenOn_append ((List.append_nil past).symm ▸ h)).resolve_right List.not_mem_nil

theorem isGiven_of_mem {line : Nat} (h : line ∈ givenOn past d) : isGiven past d = true := by
  rw [isGiven, List.isEmpty_eq_false_iff_exists_mem.2 ⟨line, h⟩]
  rfl

/-! ### Declarations and their numbers -/

theorem Frames.mem_close {frames : Frames} {x : String × Nat} (h : x ∈ frames.close.flatten) : x ∈ frames.flatten := by
  unfold close at h
  split at h
  · exact List.mem_append_right _ h
  · exact h

/-- What an event declares is added to the declarations in scope. -/
theorem Frames.flatten_declare {frames : Frames} (name : String) (id : Nat) (h : frames ≠ []) :
    (frames.declare name id).flatten.Perm ((name, id) :: frames.flatten) := by
  cases frames with
  | nil => exact absurd rfl h
  | cons frame rest =>
    rw [declare, List.flatten_cons, List.flatten_cons, List.append_assoc]
    exact List.perm_middle

/-- The global scope is always there. -/
theorem frames_ne_nil (past : List Event) : frames past ≠ [] := by
  induction past with
  | nil => exact List.cons_ne_nil _ _
  | cons e past ih =>
    obtain ⟨frame, rest, hframes⟩ := List.exists_cons_of_ne_nil ih
    rw [frames, hframes]
    cases e.act with
    | closed => cases rest <;> exact List.cons_ne_nil _ _
    | _ => exact List.cons_ne_nil _ _

/-- Each declaration in scope is a declaration of the past, and its number is that of the events before it. -/
theorem declared_of_mem_frames {x : String × Nat} (h : x ∈ (frames past).flatten) :
    ∃ later line valued earlier, past = later ++ ⟨line, .declared x.1 valued⟩ :: earlier ∧ earlier.length = x.2 := by
  induction past with
  | nil => cases h
  | cons e past ih =>
    have hearlier : x ∈ (frames past).flatten → ∃ later line valued earlier,
        e :: past = later ++ ⟨line, .declared x.1 valued⟩ :: earlier ∧ earlier.length = x.2 := fun h => by
      obtain ⟨later, line, valued, earlier, rfl, hlength⟩ := ih h
      exact ⟨e :: later, line, valued, earlier, rfl, hlength⟩
    obtain ⟨line, act⟩ := e
    cases act with
    | opened => exact hearlier h
    | assigned name => exact hearlier h
    | closed => exact hearlier (Frames.mem_close h)
    | declared name valued =>
      have hperm := Frames.flatten_declare name past.length (frames_ne_nil past)
      rcases List.mem_cons.1 (hperm.mem_iff.1 h) with rfl | h
      · exact ⟨[], line, valued, past, rfl, rfl⟩
      · exact hearlier h

theorem lt_of_mem_frames {x : String × Nat} (h : x ∈ (frames past).flatten) : x.2 < past.length := by
  obtain ⟨later, line, valued, earlier, rfl, hlength⟩ := declared_of_mem_frames h
  rw [List.length_append, List.length_cons]
  omega

/-- No two declarations in scope have the same number. -/
theorem frames_nodup (past : List Event) : ((frames past).flatten.map Prod.snd).Nodup := by
  induction past with
  | nil => exact .nil
  | cons e past ih =>
    rw [frames]
    cases e.act with
    | opened => exact ih
    | assigned name => exact ih
    | closed =>
      show ((frames past).close.flatten.map Prod.snd).Nodup
      unfold Frames.close
      split
      · next inner outer rest hframes =>
        rw [hframes, List.flatten_cons, List.map_append] at ih
        exact (List.nodup_append'.1 ih).2.1
      · exact ih
    | declared name valued =>
      have hperm := Frames.flatten_declare name past.length (frames_ne_nil past)
      refine ((hperm.map Prod.snd).nodup_iff).2 (List.nodup_cons.2 ⟨fun hmem => ?_, ih⟩)
      obtain ⟨x, hx, hid⟩ := List.mem_map.1 hmem
      exact Nat.ne_of_lt (lt_of_mem_frames hx) hid

/-- A name stands for a declaration of this name. -/
theorem declared_of_declaration? (h : declaration? past name = some d) :
    ∃ later line valued earlier, past = later ++ ⟨line, .declared name valued⟩ :: earlier ∧ earlier.length = d := by
  obtain ⟨frame, hframe, hlookup⟩ := List.exists_of_findSome?_eq_some h
  obtain ⟨before, after, rfl, -⟩ := List.lookup_eq_some_iff.1 hlookup
  exact declared_of_mem_frames (x := (name, d)) (List.mem_flatten.2 ⟨_, hframe, by simp⟩)

theorem lt_of_declaration? (h : declaration? past name = some d) : d < past.length := by
  obtain ⟨later, line, valued, earlier, rfl, hlength⟩ := declared_of_declaration? h
  rw [List.length_append, List.length_cons]
  omega

/-- A declaration is given no value before it is made. -/
theorem isGiven_of_length_le (h : past.length ≤ d) : isGiven past d = false := by
  induction past with
  | nil => rfl
  | cons e past ih =>
    rw [List.length_cons] at h
    rw [isGiven_cons, ih (by omega), Bool.or_false]
    cases hact : e.act with
    | declared name valued =>
      rw [Act.gives, decide_eq_false (by omega)]
      rfl
    | assigned name =>
      refine decide_eq_false fun hdeclaration => ?_
      have hlt := lt_of_declaration? hdeclaration
      omega
    | _ => rfl

end Past

/-! ## Scopes and their past -/

/-- The variables of a table with their flags. -/
def SymbolTable.flags (t : SymbolTable Variable) : List (String × Bool) :=
  t.entries.map fun e => (e.1, e.2.isInitialized)

/-- The variables of all open scopes with their flags, from the innermost scope outwards. -/
def ScopeChain.flags : ScopeChain → List (List (String × Bool))
  | .global s => [s.vars.flags]
  | .block s outer => s.vars.flags :: outer.flags

/-- What the flags should be: set for the declarations that have been given a value. -/
def Frames.flags (past : List Event) (frames : Frames) : List (List (String × Bool)) :=
  frames.map fun frame => frame.map fun x => (x.1, isGiven past x.2)

/-- The scopes are what the past makes of them: they hold the declarations that are in scope, and the flags tell which
of these have been given a value. -/
structure Recorded (past : List Event) (c : ScopeChain) : Prop where
  flags : c.flags = (frames past).flags past
  distinct : ∀ table ∈ c.flags, (table.map Prod.fst).Nodup

/-- The flags tell the truth: a name stands for a variable if it stands for a declaration, and the variable is marked
initialized if this declaration has been given a value. -/
def Truthful (past : List Event) (c : ScopeChain) : Prop :=
  ∀ name, (c.visibleVariable? name).map Variable.isInitialized = (declaration? past name).map (isGiven past)

theorem recorded_start : Recorded [] .empty := ⟨rfl, fun _ h => List.mem_singleton.1 h ▸ .nil⟩

theorem Frames.flags_congr {past past' : List Event} {frames : Frames}
    (h : ∀ x ∈ frames.flatten, isGiven past x.2 = isGiven past' x.2) : frames.flags past = frames.flags past' := by
  refine List.map_congr_left fun frame hframe => List.map_congr_left fun x hx => ?_
  rw [h x (List.mem_flatten.2 ⟨frame, hframe, hx⟩)]

/-- A value may be changed before it is looked up or after. -/
theorem lookup_map_values {α β : Type} (f : α → β) (entries : List (String × α)) (name : String) :
    (entries.map fun e => (e.1, f e.2)).lookup name = (entries.lookup name).map f := by
  induction entries with
  | nil => rfl
  | cons e es ih =>
    rw [List.map_cons, List.lookup_cons, List.lookup_cons]
    cases name == e.1 with
    | true => rfl
    | false => exact ih

namespace ScopeChain

/-- Setting the innermost scope changes the first of the tables. -/
theorem exists_flags (c : ScopeChain) : ∃ rest, c.flags = c.innermost.vars.flags :: rest ∧
    ∀ s, (c.setInnermost s).flags = s.vars.flags :: rest := by
  cases c with
  | global s => exact ⟨[], rfl, fun _ => rfl⟩
  | block s outer => exact ⟨outer.flags, rfl, fun _ => rfl⟩

theorem isInitialized_visibleVariable? (c : ScopeChain) (name : String) :
    (c.visibleVariable? name).map Variable.isInitialized = c.flags.findSome? (·.lookup name) := by
  induction c with
  | global s =>
    rw [flags, List.findSome?_singleton, SymbolTable.flags, lookup_map_values]
    rfl
  | block s outer ih =>
    rw [flags, List.findSome?_cons, SymbolTable.flags, lookup_map_values, visibleVariable?, SymbolTable.get?, ← ih]
    cases s.vars.entries.lookup name <;> rfl

end ScopeChain

namespace Recorded

variable {past : List Event} {c : ScopeChain} {name : String}

/-- **Flags tell the truth.** -/
theorem truthful (h : Recorded past c) : Truthful past c := fun name => by
  rw [c.isInitialized_visibleVariable?, h.flags, Frames.flags, declaration?, List.findSome?_map]
  induction frames past with
  | nil => rfl
  | cons frame rest ih =>
    rw [List.findSome?_cons, List.findSome?_cons, Function.comp_apply, lookup_map_values, ih]
    cases frame.lookup name <;> rfl

/-! ### Blocks -/

theorem push (h : Recorded past c) (line : Nat) : Recorded (⟨line, .opened⟩ :: past) c.push where
  flags := congrArg ([] :: ·) h.flags
  distinct table htable := by
    rcases List.mem_cons.1 htable with rfl | htable
    · exact .nil
    · exact h.distinct table htable

theorem pop (h : Recorded past c) (line : Nat) : Recorded (⟨line, .closed⟩ :: past) (c.pop?.getD c) := by
  have hflags := h.flags
  have hdistinct := h.distinct
  cases c with
  | global s =>
    refine ⟨?_, hdistinct⟩
    show ScopeChain.flags (.global s) = (frames past).close.flags past
    obtain ⟨frame, rest, hframes, -, hrest⟩ := List.map_eq_cons_iff.1 hflags.symm
    cases List.map_eq_nil_iff.1 hrest
    rw [hflags, hframes]
    rfl
  | block s outer =>
    refine ⟨?_, fun table htable => hdistinct table (List.mem_cons_of_mem _ htable)⟩
    show outer.flags = (frames past).close.flags past
    obtain ⟨frame, rest, hframes, -, hrest⟩ := List.map_eq_cons_iff.1 hflags.symm
    obtain ⟨more, hmore, -⟩ := outer.exists_flags
    obtain ⟨second, others, rfl, -, -⟩ := List.map_eq_cons_iff.1 (hrest.trans hmore)
    rw [hframes, ← hrest]
    rfl

/-! ### Declarations -/

theorem declare (h : Recorded past c) (line : Nat) (hfresh : c.innermost.vars.contains name = false) (v : Variable) :
    Recorded (⟨line, .declared name v.isInitialized⟩ :: past) (c.withVariables [(name, v)]) := by
  obtain ⟨rest, hfirst, hset⟩ := c.exists_flags
  obtain ⟨frame, more, hframes, hframe, hmore⟩ := List.map_eq_cons_iff.1 (h.flags.symm.trans hfirst)
  have hset' : (c.withVariables [(name, v)]).flags =
      (c.innermost.vars.flags ++ [(name, v.isInitialized)]) :: rest := by
    rw [ScopeChain.withVariables, hset, SymbolTable.flags, List.map_append]
    rfl
  have hold : ∀ x ∈ (frames past).flatten,
      isGiven past x.2 = isGiven (⟨line, .declared name v.isInitialized⟩ :: past) x.2 := fun x hx => by
    have hne : x.2 ≠ past.length := Nat.ne_of_lt (lt_of_mem_frames hx)
    rw [isGiven_cons, Act.gives, decide_eq_false hne]
    rfl
  have hnew : isGiven (⟨line, .declared name v.isInitialized⟩ :: past) past.length = v.isInitialized := by
    rw [isGiven_cons, Act.gives, decide_eq_true rfl, isGiven_of_length_le (Nat.le_refl _), Bool.or_false]
    rfl
  have hsame := Frames.flags_congr hold
  rw [hframes, Frames.flags, Frames.flags, List.map_cons, List.map_cons, hframe, hmore] at hsame
  obtain ⟨hsameFrame, hsameMore⟩ := List.cons.inj hsame
  constructor
  · show _ = ((frames past).declare name past.length).flags _
    rw [hset', hframes, Frames.declare, Frames.flags, List.map_cons, List.map_append, ← hsameFrame, ← hsameMore,
      List.map_singleton, hnew]
  · intro table htable
    rw [hset'] at htable
    rcases List.mem_cons.1 htable with rfl | htable
    · have hdistinct := h.distinct c.innermost.vars.flags (hfirst ▸ List.mem_cons_self)
      rw [List.map_append]
      refine List.nodup_append'.2 ⟨hdistinct, List.nodup_singleton _, fun name' hold hnew => ?_⟩
      cases List.mem_singleton.1 hnew
      have hnames : c.innermost.vars.flags.map Prod.fst = c.innermost.vars.names := by
        rw [SymbolTable.flags, List.map_map]
        rfl
      exact SymbolTable.contains_eq_false.1 hfresh (hnames ▸ hold)
    · exact h.distinct table (hfirst ▸ List.mem_cons_of_mem _ htable)

theorem declareAll (h : Recorded past c) (line : Nat) {entries : List (String × Variable)}
    (hnames : (entries.map Prod.fst).Nodup) (hfresh : ∀ e ∈ entries, c.innermost.vars.contains e.1 = false) :
    Recorded ((entries.map fun e => ⟨line, .declared e.1 e.2.isInitialized⟩).reverse ++ past)
      (c.withVariables entries) := by
  induction entries generalizing past c with
  | nil =>
    rw [c.withVariables_nil]
    exact h
  | cons e es ih =>
    obtain ⟨hfirst, hfresh⟩ := List.forall_mem_cons.1 hfresh
    obtain ⟨hnew, hnames⟩ := List.nodup_cons.1 hnames
    have hrest := ih (h.declare line hfirst e.2) hnames fun e' he' =>
      (c.contains_withVariables e e'.1).2 ⟨hfresh e' he', fun heq => hnew (heq ▸ List.mem_map_of_mem he')⟩
    rw [ScopeChain.withVariables_append] at hrest
    rw [List.map_cons, List.reverse_cons, List.append_assoc]
    exact hrest

end Recorded

/-! ### Assignments -/

/-- Sets the flag of the name in the first table that has it. -/
def markFirst (name : String) : List (List (String × Bool)) → List (List (String × Bool))
  | [] => []
  | table :: rest =>
    if name ∈ table.map Prod.fst then (table.map fun e => if e.1 = name then (e.1, true) else e) :: rest
    else table :: markFirst name rest

theorem SymbolTable.flags_modify (t : SymbolTable Variable) (name : String) :
    (t.modify name .markInitialized).flags = t.flags.map fun e => if e.1 = name then (e.1, true) else e := by
  rw [flags, flags, modify, List.map_map, List.map_map]
  refine List.map_congr_left fun e _ => ?_
  simp only [Function.comp_apply]
  split <;> rfl

theorem SymbolTable.contains_iff_mem_flags {t : SymbolTable Variable} {name : String} :
    t.contains name = true ↔ name ∈ t.flags.map Prod.fst := by
  rw [contains, List.contains_iff_mem, flags, List.map_map]
  rfl

theorem ScopeChain.flags_initializing (c : ScopeChain) (name : String) :
    (c.initializing name).flags = markFirst name c.flags := by
  induction c with
  | global s =>
    rw [initializing, flags, flags, SymbolTable.flags_modify, markFirst]
    split
    · rfl
    · next hmem =>
      refine congrArg (· :: []) ((List.map_congr_left fun e he => if_neg fun hname => hmem ?_).trans (List.map_id _))
      exact hname ▸ List.mem_map_of_mem he
  | block s outer ih =>
    rw [initializing, flags, markFirst]
    by_cases hmem : name ∈ s.vars.flags.map Prod.fst
    · rw [if_pos (SymbolTable.contains_iff_mem_flags.2 hmem), if_pos hmem, flags, SymbolTable.flags_modify]
    · rw [if_neg (mt SymbolTable.contains_iff_mem_flags.1 hmem), if_neg hmem, flags, ih]

/-- The mark goes to the declaration that the name stands for, and to no other. -/
theorem Frames.markFirst_flags {past : List Event} {name : String} {frames : Frames}
    (hids : (frames.flatten.map Prod.snd).Nodup) (hnames : ∀ frame ∈ frames, (frame.map Prod.fst).Nodup) :
    markFirst name (frames.flags past) = frames.map fun frame => frame.map fun x =>
      (x.1, decide (frames.findSome? (·.lookup name) = some x.2) || isGiven past x.2) := by
  induction frames with
  | nil => rfl
  | cons frame rest ih =>
    obtain ⟨hframeNames, hnames⟩ := List.forall_mem_cons.1 hnames
    rw [List.flatten_cons, List.map_append] at hids
    obtain ⟨hframeIds, hrestIds, hapart⟩ := List.nodup_append'.1 hids
    have hfst : (frame.map fun x => (x.1, isGiven past x.2)).map Prod.fst = frame.map Prod.fst := by
      rw [List.map_map]
      rfl
    rw [flags, List.map_cons, markFirst, hfst, List.map_cons, List.findSome?_cons]
    cases hlookup : frame.lookup name with
    | some d =>
      -- In this frame the name and the number belong to the same entry; the numbers of the other frames differ.
      obtain ⟨before, after, hsplit, -⟩ := List.lookup_eq_some_iff.1 hlookup
      have hmem : (name, d) ∈ frame := by rw [hsplit]; simp
      rw [if_pos (List.mem_map_of_mem hmem), List.map_map]
      refine congrArg₂ _ (List.map_congr_left fun x hx => ?_) ?_
      · have hsame : x.1 = name ↔ d = x.2 :=
          ⟨fun h => (congrArg Prod.snd (List.inj_on_of_nodup_map hframeNames hx hmem h)).symm,
            fun h => congrArg Prod.fst (List.inj_on_of_nodup_map hframeIds hx hmem h.symm)⟩
        simp only [Function.comp_apply, Option.some.injEq, hsame]
        by_cases h : d = x.2 <;> simp [h]
      · refine List.map_congr_left fun other hother => List.map_congr_left fun x hx => ?_
        have hne : d ≠ x.2 := fun h => hapart (List.mem_map_of_mem hmem) (List.mem_map.2
          ⟨x, List.mem_flatten.2 ⟨other, hother, hx⟩, h.symm⟩)
        simp [hne]
    | none =>
      have hnot : name ∉ frame.map Prod.fst := fun hmem => by
        obtain ⟨x, hx, rfl⟩ := List.mem_map.1 hmem
        have hne := List.lookup_eq_none_iff.1 hlookup x hx
        simp at hne
      rw [if_neg hnot]
      refine congrArg₂ _ (List.map_congr_left fun x hx => ?_) (ih hrestIds hnames)
      have hother : rest.findSome? (·.lookup name) ≠ some x.2 := fun h => by
        obtain ⟨other, hmem, hfound⟩ := List.exists_of_findSome?_eq_some h
        obtain ⟨before, after, rfl, -⟩ := List.lookup_eq_some_iff.1 hfound
        refine hapart (List.mem_map_of_mem hx) (List.mem_map.2 ⟨(name, x.2), ?_, rfl⟩)
        exact List.mem_flatten.2 ⟨_, hmem, by simp⟩
      rw [decide_eq_false hother, Bool.false_or]

/-- Whether the names of each table differ is a matter of the declarations alone. -/
theorem Frames.distinct_iff {past : List Event} {frames : Frames} :
    (∀ table ∈ frames.flags past, (table.map Prod.fst).Nodup) ↔ ∀ frame ∈ frames, (frame.map Prod.fst).Nodup := by
  simp only [flags, List.forall_mem_map, List.map_map]
  rfl

/-- An assignment gives a value to the declaration that the name stands for. -/
theorem Recorded.assign {past : List Event} {c : ScopeChain} (h : Recorded past c) (line : Nat) (name : String) :
    Recorded (⟨line, .assigned name⟩ :: past) (c.initializing name) := by
  have hnames := Frames.distinct_iff.1 (h.flags ▸ h.distinct)
  have hflags : (c.initializing name).flags = (frames past).flags (⟨line, .assigned name⟩ :: past) := by
    rw [c.flags_initializing, h.flags, Frames.markFirst_flags (frames_nodup past) hnames]
    simp only [Frames.flags, isGiven_cons]
    rfl
  exact ⟨hflags, hflags ▸ Frames.distinct_iff.2 hnames⟩

end BlockCheck
