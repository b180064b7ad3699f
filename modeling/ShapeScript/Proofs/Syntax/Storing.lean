import Mathlib.Data.Nat.Init
import ShapeScript.Syntax.Builder
import ShapeScript.Proofs.Syntax.Forms

/-!
# Storing one node

A form whose rows a range can count gets the next number, and every node of the workspace still reads
back, refers to smaller numbers and has its own span (`Build.add_ok`). What the form refers to reads
back as it was given unless its row is out of reach (`Build.store_ok`). A row out of reach lies over
older entries, which refer to earlier nodes as well.

In a workspace of this kind no chain of references goes on for ever (`Workspace.Sound.wellFounded`),
so each node unfolds to a tree (`Workspace.Sound.exists_unfoldTo?`).
-/

namespace ShapeScript

/-- The span of the node with a number, if steps bring none along. -/
def Span.nth (k : Nat) : Span := ⟨k.toUInt32, k.toUInt32 + 1⟩

theorem Span.nth_toNat {k : Nat} (lt : k < 4294967295) :
    (nth k).start.toNat = k ∧ (nth k).stop.toNat = k + 1 := by
  have start : k.toUInt32.toNat = k := UInt32.toNat_ofNat_of_lt' (Nat.lt_trans lt (by decide))
  refine ⟨start, ?_⟩
  rw [nth, UInt32.toNat_add, start]
  exact Nat.mod_eq_of_lt (Nat.succ_lt_succ lt)

/-! ## Workspaces -/

/-- `w'` is `w` after more has been built. -/
structure Workspace.Extends (w w' : Workspace) : Prop where
  arena : w.arena.Extends w'.arena
  interner : w.interner.Extends w'.interner

namespace Workspace.Extends

variable {w w' w'' : Workspace}

theorem refl (w : Workspace) : w.Extends w := ⟨.refl _, .refl _⟩

theorem trans (h : w.Extends w') (h' : w'.Extends w'') : w.Extends w'' :=
  ⟨h.arena.trans h'.arena, h.interner.trans h'.interner⟩

theorem form? (h : w.Extends w') {id : NodeId} {form : Form NodeId}
    (read : w.arena.form? w.interner id = some form) :
    w'.arena.form? w'.interner id = some form :=
  Arena.form?_of_extends h.arena h.interner read

end Workspace.Extends

/-- The side tables refer to nodes with smaller numbers only. -/
structure Arena.TablesBelow (a : Arena) (n : Nat) : Prop where
  rows : ∀ id ∈ a.rows.toList, id.index < n
  cases : ∀ arm ∈ a.cases.toList, arm.label.index < n ∧ arm.body.index < n

namespace Arena.TablesBelow

variable {a : Arena} {n m : Nat}

theorem mono (h : a.TablesBelow n) (le : n ≤ m) : a.TablesBelow m where
  rows id mem := Nat.lt_of_lt_of_le (h.rows id mem) le
  cases arm mem :=
    ⟨Nat.lt_of_lt_of_le (h.cases arm mem).1 le, Nat.lt_of_lt_of_le (h.cases arm mem).2 le⟩

theorem addRow (h : a.TablesBelow n) {ids : List NodeId} (inside : ∀ id ∈ ids, id.index < n) :
    TablesBelow { a with rows := a.rows ++ ids } n where
  rows id mem := by
    rw [Array.toList_appendList] at mem
    exact (List.mem_append.mp mem).elim (h.rows id) (inside id)
  cases := h.cases

theorem addCases (h : a.TablesBelow n) {arms : List Case}
    (inside : ∀ arm ∈ arms, arm.label.index < n ∧ arm.body.index < n) :
    TablesBelow { a with cases := a.cases ++ arms } n where
  rows := h.rows
  cases arm mem := by
    rw [Array.toList_appendList] at mem
    exact (List.mem_append.mp mem).elim (h.cases arm) (inside arm)

end Arena.TablesBelow

theorem Arena.Extends.span? {a b : Arena} (h : a.Extends b) {id : NodeId} {span : Span}
    (located : a.span? id = some span) : b.span? id = some span := by
  obtain ⟨node, held, located⟩ := Option.map_eq_some_iff.mp located
  exact Option.map_eq_some_iff.mpr ⟨node, h.node? held, located⟩

/-- A node refers to another one, by itself or by a row. -/
def Arena.Refers (a : Arena) (i : Interner) (child parent : NodeId) : Prop :=
  ∃ form, a.form? i parent = some form ∧ child ∈ form.refs

/-- Every node can be read back, refers to nodes with smaller numbers, and has its own span. -/
structure Workspace.Sound (w : Workspace) : Prop where
  lawful : w.interner.Lawful
  tables : w.arena.TablesBelow w.arena.size
  nodes : ∀ k < w.arena.size, ∃ form, w.arena.form? w.interner ⟨k⟩ = some form ∧ form.RowsFit ∧
    (∀ child ∈ form.refs, child.index < k) ∧ w.arena.span? ⟨k⟩ = some (.nth k)

namespace Workspace.Sound

variable {w w' : Workspace}

theorem start {interner : Interner} (lawful : interner.Lawful) : Sound ⟨.empty, interner⟩ where
  lawful := lawful
  tables := ⟨nofun, nofun⟩
  nodes := fun k lt => absurd lt (Nat.not_lt_zero k)

/-- Names may be added to a sound workspace. -/
theorem mono (sound : w.Sound) (grown : w.Extends w') (lawful : w'.interner.Lawful)
    (arena : w'.arena = w.arena) : w'.Sound where
  lawful := lawful
  tables := arena ▸ sound.tables
  nodes := by
    intro k lt
    obtain ⟨form, read, fits, below, located⟩ := sound.nodes k (arena ▸ lt)
    exact ⟨form, grown.form? read, fits, below, grown.arena.span? located⟩

theorem refers_lt (sound : w.Sound) {child parent : NodeId}
    (refers : w.arena.Refers w.interner child parent) : child.index < parent.index := by
  obtain ⟨form, read, mem⟩ := refers
  obtain ⟨node, held, -⟩ := Option.bind_eq_some_iff.mp read
  have lt : parent.index < w.arena.size := (Array.getElem?_eq_some_iff.mp held).1
  obtain ⟨form', read', -, below, -⟩ := sound.nodes parent.index lt
  rw [read] at read'
  cases read'
  exact below child mem

/-- From a node no recursion over what nodes refer to goes on for ever. -/
theorem wellFounded (sound : w.Sound) : WellFounded (w.arena.Refers w.interner) :=
  Subrelation.wf (fun refers => sound.refers_lt refers) (measure NodeId.index).wf

/-- Unfolding a node ends, at a depth that its number bounds. -/
theorem exists_unfoldTo? (sound : w.Sound) {k : Nat} (lt : k < w.arena.size) :
    ∃ tree, ∀ depth, k < depth → w.arena.unfoldTo? w.interner depth ⟨k⟩ = some tree := by
  induction k using Nat.strong_induction_on with
  | _ k ih =>
    obtain ⟨form, read, -, below, located⟩ := sound.nodes k lt
    -- at depth `k` every child is unfolded, and deeper unfolding gives the same trees
    let child (id : NodeId) : Tree :=
      (w.arena.unfoldTo? w.interner k id).getD (.breakOut .dummy)
    refine ⟨Tree.ofForm (.nth k) (form.map child), fun depth deep => ?_⟩
    obtain ⟨depth, rfl⟩ := Nat.exists_eq_succ_of_ne_zero (Nat.ne_zero_of_lt deep)
    have children : ∀ id ∈ form.refs, w.arena.unfoldTo? w.interner depth id = some (child id) := by
      intro id mem
      have smaller := below id mem
      obtain ⟨tree, unfolds⟩ := ih id.index smaller (Nat.lt_trans smaller lt)
      have bounded : child id = tree := by
        simp only [child, unfolds k smaller, Option.getD_some]
      rw [bounded]
      exact unfolds depth (Nat.lt_of_lt_of_le smaller (Nat.le_of_lt_succ deep))
    rw [Arena.unfoldTo?_succ read located, Form.resolve?_eq_map children, Option.map_some]

end Workspace.Sound

/-! ## Storing the parts of a form -/

namespace Build

variable {w v w' : Workspace}

theorem bind_of_ok {α β : Type} {m : Build α} {f : α → Build β} {a : α} {w' : Workspace}
    (h : m w = .ok a w') : (m >>= f) w = f a w' := by
  change EStateM.bind m f w = _
  rw [EStateM.bind, h]

theorem intern_ok (lawful : w.interner.Lawful) (text : String) :
    ∃ n w', intern text w = .ok n w' ∧ w.Extends w' ∧ w'.interner.Lawful ∧ w'.arena = w.arena ∧
      w'.interner.text? n = some text :=
  ⟨_, _, rfl, ⟨.refl _, .intern _ text⟩, lawful.intern text, rfl, Interner.text?_intern lawful text⟩

theorem addRow_ok {ids : List NodeId} (fits : ids.length ≤ Arena.longest) :
    addRow ids w = .ok ⟨Arena.startAt w.arena.rows.size, ids.length⟩
      { w with arena.rows := w.arena.rows ++ ids } := by
  simp only [addRow, Arena.addRow, if_pos fits]

theorem addCases_ok {cases : List Case} (fits : cases.length ≤ Arena.longest) :
    addCases cases w = .ok ⟨Arena.startAt w.arena.cases.size, cases.length⟩
      { w with arena.cases := w.arena.cases ++ cases } := by
  simp only [addCases, Arena.addCases, if_pos fits]

/-- What storing the parts of a form leaves behind, if they read back as `read`. -/
structure Stores (form read : Form NodeId) (w w' : Workspace) : Prop where
  grown : w.Extends w'
  lawful : w'.interner.Lawful
  rows : w'.arena.rows.size = w.arena.rows.size + form.rowEntries
  cases : w'.arena.cases.size = w.arena.cases.size + form.caseEntries
  fits : read.RowsFit
  same : form.InReach w.arena.rows.size w.arena.cases.size → read = form
  /-- Whatever is taken for a row refers to earlier nodes. -/
  below : ∀ {n}, w.arena.TablesBelow n → (∀ r ∈ form.refs, r.index < n) →
    w'.arena.TablesBelow n ∧ ∀ r ∈ read.refs, r.index < n

/-- A form without rows puts nothing into the side tables. -/
theorem Stores.of_arena_eq {form : Form NodeId} (arena : w'.arena = w.arena) (grown : w.Extends w')
    (lawful : w'.interner.Lawful) (fits : form.RowsFit) (rows : form.rowEntries = 0)
    (cases : form.caseEntries = 0) : Stores form form w w' where
  grown := grown
  lawful := lawful
  rows := by rw [arena, rows, Nat.add_zero]
  cases := by rw [arena, cases, Nat.add_zero]
  fits := fits
  same := fun _ => rfl
  below := fun tables inside => ⟨arena ▸ tables, inside⟩

/-- A form that refers to the entries of its row and to nothing else. Its name is stored before. -/
theorem Stores.of_row (form : List NodeId → Form NodeId) (refs : ∀ ids, (form ids).refs = ids)
    (rowEntries : ∀ ids, (form ids).rowEntries = ids.length)
    (caseEntries : ∀ ids, (form ids).caseEntries = 0)
    (rowsFit : ∀ ids, (form ids).RowsFit ↔ ids.length ≤ Arena.longest) {ids : List NodeId}
    (fits : (form ids).RowsFit) (arena : v.arena = w.arena) (grown : w.Extends v)
    (lawful : v.interner.Lawful) :
    ∃ read, Arena.row? { v.arena with rows := v.arena.rows ++ ids }
        ⟨Arena.startAt v.arena.rows.size, ids.length⟩ = some read ∧
      Stores (form ids) (form read) w { v with arena.rows := v.arena.rows ++ ids } := by
  obtain ⟨read, row, length, mem, same⟩ := Arena.exists_slice?_startAt v.arena.rows ids
  refine ⟨read, row, ?_⟩
  exact {
    grown := grown.trans ⟨Arena.extends_rows v.arena ids, .refl _⟩
    lawful := lawful
    rows := by rw [rowEntries, ← arena]; exact Arena.size_append v.arena.rows ids
    cases := by rw [caseEntries, arena, Nat.add_zero]
    fits := (rowsFit read).mpr (length ▸ (rowsFit ids).mp fits)
    same := fun reach => congrArg form (same (arena ▸ rowEntries ids ▸ reach.1))
    below := by
      intro n tables inside
      have tables := (arena ▸ tables : v.arena.TablesBelow n).addRow (refs ids ▸ inside)
      refine ⟨tables, fun r referred => tables.rows r (mem r ?_)⟩
      rwa [refs] at referred }

/-- The arms of a switch as they lie in the table of cases. -/
theorem Stores.of_cases {scrutinee : NodeId} {arms : List (NodeId × NodeId)}
    {fallback : Option NodeId} (fits : arms.length ≤ Arena.longest) (lawful : w.interner.Lawful) :
    let cases := arms.map fun arm => Case.mk arm.1 arm.2
    ∃ read, Arena.cases? { w.arena with cases := w.arena.cases ++ cases }
        ⟨Arena.startAt w.arena.cases.size, cases.length⟩ = some read ∧
      Stores (.switch scrutinee arms fallback)
        (.switch scrutinee (read.map fun arm => (arm.label, arm.body)) fallback)
        w { w with arena.cases := w.arena.cases ++ cases } := by
  intro cases
  have count : cases.length = arms.length := List.length_map _
  obtain ⟨read, held, length, mem, same⟩ := Arena.exists_slice?_startAt w.arena.cases cases
  refine ⟨read, held, ?_⟩
  refine {
    grown := ⟨Arena.extends_cases w.arena cases, .refl _⟩
    lawful := lawful
    rows := rfl
    cases := (Arena.size_append w.arena.cases cases).trans (congrArg (_ + ·) count)
    fits := ?_, same := ?_, below := ?_ }
  · rw [Form.RowsFit, List.length_map, length, count]
    exact fits
  · intro reach
    have all : read = cases := same (count ▸ reach.2)
    simp [all, cases, Function.comp_def]
  · intro n tables inside
    simp only [Form.refs, List.mem_append, List.mem_cons, List.mem_flatMap] at inside
    have tables : Arena.TablesBelow _ n := tables.addCases fun arm (listed : arm ∈ cases) => by
      obtain ⟨pair, mem, rfl⟩ := List.mem_map.mp listed
      exact ⟨inside _ (.inl (.inr ⟨pair, mem, .inl rfl⟩)),
        inside _ (.inl (.inr ⟨pair, mem, .inr (.inl rfl)⟩))⟩
    refine ⟨tables, fun r referred => ?_⟩
    simp only [Form.refs, List.mem_append, List.mem_cons, List.mem_flatMap, List.mem_map] at referred
    rcases referred with (rfl | ⟨_, ⟨arm, listed, rfl⟩, rfl | rfl | none⟩) | last
    · exact inside _ (.inl (.inl rfl))
    · exact (tables.cases arm (mem arm listed)).1
    · exact (tables.cases arm (mem arm listed)).2
    · cases none
    · exact inside r (.inr last)

/-- What is stored for a form can be read back. -/
theorem store_ok (lawful : w.interner.Lawful) {form : Form NodeId} (fits : form.RowsFit) :
    ∃ kind read w', store form w = .ok kind w' ∧ Stores form read w w' ∧
      w'.arena.size = w.arena.size ∧ w'.arena.formOf? w'.interner kind = some read := by
  cases form with
  | block stmts =>
    obtain ⟨ids, row, stores⟩ := Stores.of_row .block (fun _ => rfl) (fun _ => rfl)
      (fun _ => rfl) (fun _ => .rfl) fits rfl (.refl w) lawful
    exact ⟨.block _, .block ids, _, bind_of_ok (addRow_ok fits), stores, rfl,
      Option.bind_eq_some_iff.mpr ⟨ids, row, rfl⟩⟩
  | switch scrutinee arms fallback =>
    obtain ⟨read, held, stores⟩ := Stores.of_cases (w := w) fits lawful
    have fits : (arms.map fun arm => Case.mk arm.1 arm.2).length ≤ Arena.longest :=
      Nat.le_trans (Nat.le_of_eq (List.length_map _)) fits
    exact ⟨.switch scrutinee _ fallback, _, _, bind_of_ok (addCases_ok fits), stores, rfl,
      Option.bind_eq_some_iff.mpr ⟨read, held, rfl⟩⟩
  | countedLoop counter first last body =>
    obtain ⟨n, w', named, grown, lawful', arena, text⟩ := intern_ok lawful counter
    refine ⟨.countedLoop n first last body, _, w', bind_of_ok named,
      .of_arena_eq arena grown lawful' fits rfl rfl, congrArg Arena.size arena, ?_⟩
    rw [Arena.formOf?, text]
    rfl
  | literal text =>
    obtain ⟨n, w', named, grown, lawful', arena, text⟩ := intern_ok lawful text
    refine ⟨.literal n, _, w', bind_of_ok named, .of_arena_eq arena grown lawful' fits rfl rfl,
      congrArg Arena.size arena, ?_⟩
    rw [Arena.formOf?, text]
    rfl
  | ident var =>
    obtain ⟨n, w', named, grown, lawful', arena, text⟩ := intern_ok lawful var
    refine ⟨.ident n, _, w', bind_of_ok named, .of_arena_eq arena grown lawful' fits rfl rfl,
      congrArg Arena.size arena, ?_⟩
    rw [Arena.formOf?, text]
    rfl
  | call function args =>
    obtain ⟨n, v, named, grown, lawful', arena, text⟩ := intern_ok lawful function
    obtain ⟨ids, row, stores⟩ := Stores.of_row (.call function) (fun _ => rfl) (fun _ => rfl)
      (fun _ => rfl) (fun _ => .rfl) fits arena grown lawful'
    refine ⟨.call n ⟨Arena.startAt v.arena.rows.size, args.length⟩, _, _, ?_, stores,
      congrArg (·.nodes.size) arena, ?_⟩
    · rw [store, bind_of_ok named]
      exact bind_of_ok (addRow_ok fits)
    · exact Option.bind_eq_some_iff.mpr ⟨function, text, Option.bind_eq_some_iff.mpr ⟨ids, row, rfl⟩⟩
  | _ => exact ⟨_, _, w, rfl, .of_arena_eq rfl (.refl w) lawful fits rfl rfl, rfl, rfl⟩

/-! ## Adding a node -/

/-- A node for a form gets the next number and can be read back at its span. -/
theorem place_ok (lawful : w.interner.Lawful) {form : Form NodeId} (fits : form.RowsFit) (span : Span)
    (room : w.arena.size < Arena.capacity) :
    ∃ read w', place form span w = .ok ⟨w.arena.size⟩ w' ∧ Stores form read w w' ∧
      w'.arena.size = w.arena.size + 1 ∧
      w'.arena.form? w'.interner ⟨w.arena.size⟩ = some read ∧
      w'.arena.span? ⟨w.arena.size⟩ = some span := by
  obtain ⟨kind, read, v, stored, stores, size, readsBack⟩ := store_ok lawful fits
  let node : Node := ⟨kind, span⟩
  let w' : Workspace := { v with arena.nodes := v.arena.nodes.push node }
  have pushed : addNode node v = .ok ⟨w.arena.size⟩ w' := by
    have room' : v.arena.nodes.size < Arena.capacity := by
      change v.arena.size < _
      rwa [size]
    simp only [addNode, Arena.addNode, if_pos room']
    exact congrArg (EStateM.Result.ok · w') (congrArg NodeId.mk size)
  have more : v.Extends w' := ⟨Arena.extends_nodes v.arena node, .refl _⟩
  have held : w'.arena.node? ⟨w.arena.size⟩ = some node := by
    rw [← size]
    exact (Arena.node?_push v.arena node _).trans (if_pos rfl)
  have stores' : Stores form read w w' :=
    { stores with
      grown := stores.grown.trans more
      below := fun tables inside =>
        (stores.below tables inside).imp_left fun tables => ⟨tables.rows, tables.cases⟩ }
  refine ⟨read, w', (bind_of_ok stored).trans pushed, stores', ?_, ?_, ?_⟩
  · rw [← size]
    exact Array.size_push node
  · rw [Arena.form?, held]
    exact Arena.formOf?_of_extends more.arena more.interner readsBack
  · rw [Arena.span?, held, Option.map_some]

/-- What adding a node for a form leaves behind. -/
structure Adds (form : Form NodeId) (w w' : Workspace) : Prop where
  grown : w.Extends w'
  sound : w'.Sound
  size : w'.arena.size = w.arena.size + 1
  rows : w'.arena.rows.size = w.arena.rows.size + form.rowEntries
  cases : w'.arena.cases.size = w.arena.cases.size + form.caseEntries
  read : form.InReach w.arena.rows.size w.arena.cases.size →
    w'.arena.form? w'.interner ⟨w.arena.size⟩ = some form

/-- A node for a form that refers to nodes of the workspace gets the next number. -/
theorem add_ok (sound : w.Sound) (form : Form NodeId) (fits : form.RowsFit)
    (inside : ∀ r ∈ form.refs, r.index < w.arena.size) (room : w.arena.size < Arena.capacity) :
    ∃ w', add none form w = .ok ⟨w.arena.size⟩ w' ∧ Adds form w w' := by
  obtain ⟨read, w', placed, stores, size, readsBack, located⟩ :=
    place_ok sound.lawful fits (.nth w.arena.size) room
  have ⟨tables, below⟩ := stores.below sound.tables inside
  refine ⟨w', placed, stores.grown, ⟨stores.lawful, tables.mono ?_, fun k lt => ?_⟩, size,
    stores.rows, stores.cases, fun reach => stores.same reach ▸ readsBack⟩
  · rw [size]
    exact Nat.le_succ _
  · rcases Nat.lt_succ_iff_lt_or_eq.mp (size ▸ lt) with old | rfl
    · obtain ⟨form, readsBack, fits, below, located⟩ := sound.nodes k old
      exact ⟨form, stores.grown.form? readsBack, fits, below, stores.grown.arena.span? located⟩
    · exact ⟨read, readsBack, stores.fits, below, located⟩

end Build

end ShapeScript
