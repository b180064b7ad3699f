import ShapeScript.Proofs.Expression.Numbering
import ShapeScript.Proofs.Syntax.Storing

/-!
# Trees that are built step by step

Steps that refer to earlier steps build nodes that refer to earlier nodes, whatever the order of the
steps and whoever interns strings in between. So the nodes have no cycle, each has its own place, and
below each of them is a finite tree (`Step.buildShared_acyclic`). What one added node keeps
(`Build.add_ok`) is kept by one step (`Step.build_ok`) and so by all (`Step.buildShared_ok`).

Rows read back as they were given up to the 2^32nd entry of their side table. Behind it they are taken
for older ones (`Step.buildShared_misreads`), but also these refer to earlier nodes only.
-/

namespace ShapeScript

/-! ## Steps -/

namespace Step

/-- The earlier steps that a step refers to. -/
def refs : Step → List Nat
  | form described => described.refs
  | number _ => []
  | set _ value | update _ _ value => [value]

/-- No row has more entries than a range can count. -/
def RowsFit : Step → Prop
  | form described => described.RowsFit
  | number _ | set .. | update .. => True

/-- How many entries a step has in the table of rows. -/
def rowEntries : Step → Nat
  | form described => described.rowEntries
  | number _ | set .. | update .. => 0

/-- How many entries a step has in the table of cases. -/
def caseEntries : Step → Nat
  | form described => described.caseEntries
  | number _ | set .. | update .. => 0

/-- The rows of a step can be told from older entries, of which the side tables have so many. -/
def InReach (step : Step) (rows cases : Nat) : Prop :=
  Arena.InReach step.rowEntries rows ∧ Arena.InReach step.caseEntries cases

/-- How many nodes a step makes. -/
def nodes : Step → Nat
  | form _ | number _ => 1
  | set .. | update .. => 2

/-- The node that a step has made reads back as what the step describes, if the earlier steps have
made the given nodes. -/
def Made (a : Arena) (i : Interner) (made : Array NodeId) (id : NodeId) : Step → Prop
  | form described =>
    ∃ form, described.resolve? (made[·]?) = some form ∧ a.form? i id = some form
  | number value => a.form? i id = some (.literal (Shortest.text value))
  | set var value => assigned .assign var value
  | update var op value => assigned op var value
where
  assigned (op : AssignOp) (var : String) (value : Nat) : Prop :=
    ∃ target value', made[value]? = some value' ∧ a.form? i target = some (.ident var) ∧
      a.form? i id = some (.assign op target value')

/-- Carries out steps that bring no span along. Before each of them strings may be interned, by
whoever shares the interner. -/
def buildShared : List (List String × Step) → Array NodeId → Build (Array NodeId)
  | [], made => return made
  | (strings, step) :: rest, made => do
    modify fun w => { w with interner := w.interner.internAll strings }
    let id ← step.build made none
    buildShared rest (made.push id)

/-! ## One step -/

open Build

variable {w w' : Workspace} {made made' : Array NodeId} {step : Step} {id : NodeId}

/-- Where `made` has a node, `made'` has the same. -/
def Keeps (made made' : Array NodeId) : Prop := ∀ ⦃k : Nat⦄ ⦃id⦄, made[k]? = some id → made'[k]? = some id

/-- What carrying out a step leaves behind. The nodes of later steps do not matter to it. -/
structure Builds (step : Step) (made : Array NodeId) (id : NodeId) (w w' : Workspace) : Prop where
  grown : w.Extends w'
  sound : w'.Sound
  size : w'.arena.size = w.arena.size + step.nodes
  rows : w'.arena.rows.size = w.arena.rows.size + step.rowEntries
  cases : w'.arena.cases.size = w.arena.cases.size + step.caseEntries
  inside : id.index < w'.arena.size
  made : step.InReach w.arena.rows.size w.arena.cases.size →
    ∀ {made' : Array NodeId}, Keeps made made' → step.Made w'.arena w'.interner made' id

theorem Made.mono (h : step.Made w.arena w.interner made id) (grown : w.Extends w') :
    step.Made w'.arena w'.interner made id := by
  have assigned : ∀ {op var value}, Made.assigned w.arena w.interner made id op var value →
      Made.assigned w'.arena w'.interner made id op var value := by
    rintro op var value ⟨target, value', found, named, read⟩
    exact ⟨target, value', found, grown.form? named, grown.form? read⟩
  cases step with
  | form described =>
    obtain ⟨form, resolved, read⟩ := h
    exact ⟨form, resolved, grown.form? read⟩
  | number value => exact grown.form? h
  | set var value | update var op value => exact assigned h

theorem update_ok (sound : w.Sound) (op : AssignOp) (var : String) {value : Nat} {value' : NodeId}
    (found : made[value]? = some value') (inside : value'.index < w.arena.size)
    (room : w.arena.size + 2 ≤ Arena.capacity) :
    ∃ id w', build.update made none op var value w = .ok id w' ∧
      (Step.update var op value).Builds made id w w' := by
  obtain ⟨v, added, first⟩ := add_ok sound (.ident var) trivial nofun (by omega)
  have refs : ∀ r ∈ Form.refs (.assign op ⟨w.arena.size⟩ value'), r.index < v.arena.size := by
    intro r mem
    rw [first.size]
    rcases List.mem_pair.mp mem with rfl | rfl
    · exact Nat.lt_succ_self _
    · exact Nat.lt_succ_of_lt inside
  have room' : v.arena.size < Arena.capacity := by
    rw [first.size]
    omega
  obtain ⟨w', added', second⟩ := add_ok first.sound (.assign op _ _) trivial refs room'
  refine ⟨⟨v.arena.size⟩, w', ?_, first.grown.trans second.grown, second.sound, ?_,
    second.rows.trans first.rows, second.cases.trans first.cases, ?_, fun _ _ kept =>
      ⟨⟨w.arena.size⟩, value', kept found,
        second.grown.form? (first.read ⟨Arena.inReach_zero _, Arena.inReach_zero _⟩),
        second.read ⟨Arena.inReach_zero _, Arena.inReach_zero _⟩⟩⟩
  · simp only [build.update, found]
    exact (bind_of_ok added).trans added'
  · rw [second.size, first.size]
    rfl
  · rw [second.size]
    exact Nat.lt_succ_self _

/-- A step that refers to earlier steps makes its node, and the workspace stays sound. -/
theorem build_ok (step : Step) (sound : w.Sound) (fits : step.RowsFit)
    (earlier : ∀ r ∈ step.refs, r < made.size)
    (inside : ∀ id ∈ made, id.index < w.arena.size)
    (room : w.arena.size + step.nodes ≤ Arena.capacity) :
    ∃ id w', step.build made none w = .ok id w' ∧ step.Builds made id w w' := by
  have found : ∀ {r}, r ∈ step.refs → ∃ id, made[r]? = some id ∧ id.index < w.arena.size := by
    intro r mem
    have lt := earlier r mem
    exact ⟨made[r], Array.getElem?_eq_getElem lt, inside _ (Array.getElem_mem lt)⟩
  cases step with
  | form described =>
    let form := described.map fun r => made.getD r ⟨0⟩
    have resolves : ∀ {made' : Array NodeId}, Keeps made made' →
        described.resolve? (made'[·]?) = some form := by
      intro made' kept
      refine Form.resolve?_eq_map fun r mem => ?_
      obtain ⟨id, held, -⟩ := found mem
      rw [kept held, Array.getD_eq_getD_getElem?, held, Option.getD_some]
    have refs : ∀ id ∈ form.refs, id.index < w.arena.size := by
      intro id mem
      rw [Form.refs_map] at mem
      obtain ⟨r, referred, rfl⟩ := List.mem_map.mp mem
      obtain ⟨id, held, lt⟩ := found referred
      rwa [Array.getD_eq_getD_getElem?, held, Option.getD_some]
    have rows : form.rowEntries = described.rowEntries := Form.rowEntries_map _ described
    have cases : form.caseEntries = described.caseEntries := Form.caseEntries_map _ described
    obtain ⟨w', added, adds⟩ := add_ok sound form ((Form.rowsFit_map _ described).mpr fits) refs room
    refine ⟨⟨w.arena.size⟩, w', ?_, adds.grown, adds.sound, adds.size, ?_, ?_, ?_,
      fun reach _ kept => ⟨form, resolves kept, adds.read ⟨rows ▸ reach.1, cases ▸ reach.2⟩⟩⟩
    · simp only [build, resolves fun _ _ held => held]
      exact added
    · rw [adds.rows, rows]
      rfl
    · rw [adds.cases, cases]
      rfl
    · rw [adds.size]
      exact Nat.lt_succ_self _
  | number value =>
    obtain ⟨w', added, adds⟩ :=
      add_ok sound (.literal (Shortest.text value)) trivial (List.forall_mem_nil _) room
    refine ⟨⟨w.arena.size⟩, w', added, adds.grown, adds.sound, adds.size, adds.rows, adds.cases, ?_,
      fun reach _ _ => adds.read reach⟩
    rw [adds.size]
    exact Nat.lt_succ_self _
  | set var value =>
    obtain ⟨value', held, lt⟩ := found (.head _)
    obtain ⟨id, w', built, builds⟩ := update_ok sound .assign var held lt room
    exact ⟨id, w', built, { builds with }⟩
  | update var op value =>
    obtain ⟨value', held, lt⟩ := found (.head _)
    exact update_ok sound op var held lt room

/-! ## Many steps -/

theorem buildShared_cons {strings : List String} {rest : List (List String × Step)} {v w' : Workspace}
    (interned : { w with interner := w.interner.internAll strings } = v)
    (built : step.build made none v = .ok id w') :
    buildShared ((strings, step) :: rest) made w = buildShared rest (made.push id) w' := by
  subst interned
  rw [buildShared]
  exact (bind_of_ok rfl).trans (bind_of_ok built)

/-- What carrying out steps leaves behind, if the given nodes were made before. -/
structure Runs (calls : List (List String × Step)) (made made' : Array NodeId) (w w' : Workspace) :
    Prop where
  grown : w.Extends w'
  sound : w'.Sound
  size : w'.arena.size = w.arena.size + (calls.map fun call => call.2.nodes).sum
  count : made'.size = made.size + calls.length
  kept : Keeps made made'
  inside : ∀ id ∈ made', id.index < w'.arena.size
  /-- A row reads back if it can be told from the entries in front of it. -/
  made : ∀ {k : Nat} {call}, calls[k]? = some call → ∃ id, made'[made.size + k]? = some id ∧
    (call.2.InReach (w.arena.rows.size + ((calls.take k).map fun call => call.2.rowEntries).sum)
        (w.arena.cases.size + ((calls.take k).map fun call => call.2.caseEntries).sum) →
      call.2.Made w'.arena w'.interner made' id)

theorem buildShared_ok (calls : List (List String × Step)) (made : Array NodeId) (sound : w.Sound)
    (inside : ∀ id ∈ made, id.index < w.arena.size) (fits : ∀ call ∈ calls, call.2.RowsFit)
    (earlier : ∀ {k : Nat} {call}, calls[k]? = some call → ∀ r ∈ call.2.refs, r < made.size + k)
    (room : w.arena.size + (calls.map fun call => call.2.nodes).sum ≤ Arena.capacity) :
    ∃ made' w', buildShared calls made w = .ok made' w' ∧ Runs calls made made' w w' := by
  induction calls generalizing w made with
  | nil => exact ⟨made, w, rfl, .refl w, sound, rfl, rfl, fun _ _ held => held, inside, nofun⟩
  | cons call rest ih =>
    obtain ⟨strings, step⟩ := call
    -- interning first changes nothing that the step relies on, so both leave a sound workspace
    rw [List.map_cons, List.sum_cons] at room
    dsimp only at room
    generalize interned : { w with interner := w.interner.internAll strings } = v
    have more : w.Extends v := by
      subst interned
      exact ⟨.refl _, .internAll _ strings⟩
    have arena : v.arena = w.arena := by rw [← interned]
    have sound' : v.Sound := by
      refine sound.mono more ?_ arena
      subst interned
      exact sound.lawful.internAll strings
    have first : ∀ r ∈ step.refs, r < made.size := earlier (k := 0) rfl
    obtain ⟨id, u, built, builds⟩ := build_ok step sound' (fits _ (.head _)) first
      (arena ▸ inside) (by rw [arena]; omega)
    have size : u.arena.size = w.arena.size + step.nodes := by rw [builds.size, arena]
    have inside' : ∀ x ∈ made.push id, x.index < u.arena.size := by
      intro x mem
      rcases Array.mem_push.mp mem with old | rfl
      · rw [size]
        exact Nat.lt_add_right _ (inside x old)
      · exact builds.inside
    have earlier' : ∀ {k : Nat} {call}, rest[k]? = some call → ∀ r ∈ call.2.refs,
        r < (made.push id).size + k := by
      intro k call held r mem
      have lt := earlier (k := k + 1) held r mem
      rw [Array.size_push]
      omega
    obtain ⟨made', w', done, runs⟩ := ih (made.push id) builds.sound inside'
      (fun call mem => fits call (.tail _ mem)) earlier' (by rw [size]; omega)
    have kept : Keeps made made' := by
      intro k x held
      have lt : k < made.size := (Array.getElem?_eq_some_iff.mp held).1
      refine runs.kept ?_
      rw [Array.getElem?_push, if_neg (Nat.ne_of_lt lt), held]
    refine ⟨made', w', (buildShared_cons interned built).trans done,
      more.trans (builds.grown.trans runs.grown), runs.sound, ?_, ?_, kept, runs.inside, ?_⟩
    · rw [runs.size, size, List.map_cons, List.sum_cons, Nat.add_assoc]
    · rw [runs.count, Array.size_push, List.length_cons, Nat.add_assoc, Nat.add_comm 1]
    · intro k call held
      cases k with
      | zero =>
        cases held
        refine ⟨id, runs.kept Array.getElem?_push_size, fun reach => ?_⟩
        exact (builds.made (arena ▸ reach) kept).mono runs.grown
      | succ k =>
        have later := runs.made (k := k) held
        rw [Array.size_push, builds.rows, builds.cases, arena] at later
        simpa only [List.take_succ_cons, List.map_cons, List.sum_cons, Nat.add_assoc,
          Nat.add_comm 1] using later

/-- Without interning in between, these are the steps of a script without spans. -/
theorem buildShared_undisturbed (steps : List Step) :
    buildShared (steps.map ([], ·)) #[] = buildAll (steps.map (·, none)) := by
  have go : ∀ made,
      buildShared (steps.map ([], ·)) made = buildAll.go (steps.map (·, none)) made := by
    induction steps with
    | nil => exact fun made => rfl
    | cons step rest ih =>
      intro made
      funext w
      rw [List.map_cons, List.map_cons, buildShared, buildAll.go]
      exact congrFun (congrArg (step.build made none >>= ·) (funext fun id => ih _)) w
  exact go #[]

/-! ## The whole build -/

/-- What steps have made of an empty arena. -/
structure Built (steps : List Step) (made : Array NodeId) (w : Workspace) : Prop where
  size : w.arena.size = (steps.map nodes).sum
  count : made.size = steps.length
  /-- Every step has made a node. Rows and names read back as the step gives them, if fewer than 2^32
  entries are in front of the row in its side table. -/
  made : ∀ {k : Nat} {step}, steps[k]? = some step →
    ∃ id, made[k]? = some id ∧ id.index < w.arena.size ∧
      (step.InReach ((steps.take k).map rowEntries).sum ((steps.take k).map caseEntries).sum →
        step.Made w.arena w.interner made id)
  span : ∀ k < w.arena.size, ∃ span, w.arena.span? ⟨k⟩ = some span ∧ span.start.toNat = k ∧
    span.stop.toNat = k + 1
  span_inj : ∀ {id id' span}, w.arena.span? id = some span → w.arena.span? id' = some span → id = id'
  /-- What a node refers to, also by a row, has a smaller number. -/
  below : ∀ k < w.arena.size, ∃ form, w.arena.form? w.interner ⟨k⟩ = some form ∧
    ∀ child ∈ form.refs, child.index < k
  wellFounded : WellFounded (w.arena.Refers w.interner)
  /-- Compiling ends at every node, and unfolding does so at a depth that the number bounds. -/
  compiles : ∀ k < w.arena.size,
    (∃ tree, ∀ depth, k < depth → w.arena.unfoldTo? w.interner depth ⟨k⟩ = some tree) ∧
    ∀ registry, ∃ outcome, NumberedExpression.compile? registry w ⟨k⟩ = some outcome

/-- Interning more text undoes nothing. -/
theorem Runs.internAll {calls : List (List String × Step)} (runs : Runs calls made made' w w')
    (later : List String) :
    Runs calls made made' w { w' with interner := w'.interner.internAll later } :=
  have more : w'.Extends { w' with interner := w'.interner.internAll later } :=
    ⟨.refl _, .internAll _ later⟩
  { runs with
    grown := runs.grown.trans more
    sound := runs.sound.mono more (runs.sound.lawful.internAll later) rfl
    made := fun held =>
      have ⟨id, found, made⟩ := runs.made held
      ⟨id, found, fun reach => (made reach).mono more⟩ }

theorem Runs.built {calls : List (List String × Step)}
    (runs : Runs calls #[] made w w') (empty : w.arena = .empty)
    (room : (calls.map fun call => call.2.nodes).sum < 4294967295) :
    Built (calls.map Prod.snd) made w' := by
  have sound := runs.sound
  have size : w'.arena.size = (calls.map fun call => call.2.nodes).sum := by
    rw [runs.size, empty]
    exact Nat.zero_add _
  have numbered : ∀ {id span}, w'.arena.span? id = some span →
      id.index < w'.arena.size ∧ span = .nth id.index := by
    intro id span located
    obtain ⟨node, held, -⟩ := Option.map_eq_some_iff.mp located
    have lt : id.index < w'.arena.size := (Array.getElem?_eq_some_iff.mp held).1
    obtain ⟨-, -, -, -, located'⟩ := sound.nodes id.index lt
    exact ⟨lt, Option.some.inj (located.symm.trans located')⟩
  refine {
    size := by rw [size, List.map_map]; rfl
    count := by rw [runs.count, List.length_map]; exact Nat.zero_add _
    made := ?_, span := ?_, span_inj := ?_, below := ?_
    wellFounded := sound.wellFounded, compiles := ?_ }
  · intro k step held
    rw [List.getElem?_map] at held
    obtain ⟨call, called, rfl⟩ := Option.map_eq_some_iff.mp held
    obtain ⟨id, found, made⟩ := runs.made called
    rw [Array.size_empty, Nat.zero_add] at found
    refine ⟨id, found, runs.inside id (Array.mem_of_getElem? found), fun reach => made ?_⟩
    rw [← List.map_take, List.map_map, List.map_map] at reach
    rw [empty]
    simpa only [Arena.empty, Array.size_empty, Nat.zero_add, Function.comp_def] using reach
  · intro k lt
    obtain ⟨-, -, -, -, located⟩ := sound.nodes k lt
    exact ⟨.nth k, located, Span.nth_toNat (Nat.lt_trans lt (size ▸ room))⟩
  · intro id id' span located located'
    obtain ⟨lt, rfl⟩ := numbered located
    obtain ⟨lt', same⟩ := numbered located'
    have starts := congrArg (fun span => span.start.toNat) same
    rw [(Span.nth_toNat (Nat.lt_trans lt (size ▸ room))).1,
      (Span.nth_toNat (Nat.lt_trans lt' (size ▸ room))).1] at starts
    exact congrArg NodeId.mk starts
  · intro k lt
    obtain ⟨form, read, -, below, -⟩ := sound.nodes k lt
    exact ⟨form, read, below⟩
  · intro k lt
    obtain ⟨tree, unfolds⟩ := sound.exists_unfoldTo? lt
    refine ⟨⟨tree, unfolds⟩, fun registry => ?_⟩
    rw [NumberedExpression.compile?, Arena.tree?, unfolds _ lt]
    exact ⟨_, rfl⟩

/-- Steps that refer to earlier steps, with rows that a range can count, all get built. Whatever is
interned in between and later, the nodes have no cycle and each has a place of its own. -/
theorem buildShared_acyclic (calls : List (List String × Step))
    (earlier : ∀ (k : Nat) call, calls[k]? = some call → ∀ r ∈ call.2.refs, r < k)
    (fits : ∀ call ∈ calls, call.2.RowsFit)
    (room : (calls.map fun call => call.2.nodes).sum < 4294967295) :
    ∃ made w, buildShared calls #[] ⟨.empty, .fresh⟩ = .ok made w ∧
      ∀ later, Built (calls.map Prod.snd) made { w with interner := w.interner.internAll later } := by
  have start : Workspace.Sound ⟨.empty, .fresh⟩ := .start Interner.lawful_fresh
  have earlier' : ∀ {k : Nat} {call}, calls[k]? = some call → ∀ r ∈ call.2.refs, r < 0 + k := by
    intro k call held
    rw [Nat.zero_add]
    exact earlier k call held
  have room' : 0 + (calls.map fun call => call.2.nodes).sum ≤ Arena.capacity := by
    rw [Nat.zero_add]
    exact Nat.le_trans (Nat.le_of_lt room) (by decide)
  obtain ⟨made, w, built, runs⟩ := buildShared_ok calls #[] start nofun fits earlier' room'
  exact ⟨made, w, built, fun later => (runs.internAll later).built rfl room⟩

/-- Two steps share an operand, and a row has the same node twice. -/
theorem buildShared_acyclic_of_shared_operand :
    let calls : List (List String × Step) :=
      [(["z"], .form (.literal "1")), ([], .set "x" 0), (["w"], .form (.block [1, 0, 1]))]
    ∃ made w, buildShared calls #[] ⟨.empty, .fresh⟩ = .ok made w ∧ made = #[⟨0⟩, ⟨2⟩, ⟨3⟩] ∧
      Built (calls.map Prod.snd) made w ∧
      w.arena.form? w.interner ⟨3⟩ = some (.block [⟨2⟩, ⟨0⟩, ⟨2⟩]) := by
  intro calls
  have earlier : ∀ (k : Nat) call, calls[k]? = some call → ∀ r ∈ call.2.refs, r < k := by
    intro k call held
    match k, held with
    | 0, rfl => nofun
    | 1, rfl => decide
    | 2, rfl => decide
  have fits : ∀ call ∈ calls, call.2.RowsFit := by
    simp [calls, RowsFit, Form.RowsFit, Arena.longest]
  obtain ⟨made, w, built, shared⟩ := buildShared_acyclic calls earlier fits (by decide)
  have run : (buildShared calls #[]).run' ⟨.empty, .fresh⟩ = some #[⟨0⟩, ⟨2⟩, ⟨3⟩] := by
    decide +kernel
  rw [EStateM.run', EStateM.run, built] at run
  obtain rfl := Option.some.inj run
  obtain ⟨id, found, -, reads⟩ := (shared []).made (k := 2) rfl
  obtain ⟨described, resolved, read⟩ := reads ⟨fun _ => by decide, fun _ => by decide⟩
  cases found
  cases resolved
  exact ⟨_, w, built, rfl, shared [], read⟩

/-! ## Rows out of reach -/

/-- The workspace with one more block and its row. -/
private def addBlock (w : Workspace) (ids : List NodeId) : Workspace :=
  { w with arena :=
    { w.arena with
      nodes := w.arena.nodes.push
        ⟨.block ⟨Arena.startAt w.arena.rows.size, ids.length⟩, .nth w.arena.size⟩
      rows := w.arena.rows ++ ids } }

private theorem build_block {stmts : List Nat} {ids : List NodeId}
    (found : stmts.mapM (made[·]?) = some ids) (fits : ids.length ≤ Arena.longest)
    (room : w.arena.size < Arena.capacity) :
    (form (.block stmts)).build made none w = .ok ⟨w.arena.size⟩ (addBlock w ids) := by
  have resolved : Form.resolve? (made[·]?) (.block stmts) = some (.block ids) := by
    rw [Form.resolve?, found]
    rfl
  have stored : store (.block ids) w = .ok (.block ⟨Arena.startAt w.arena.rows.size, ids.length⟩)
      { w with arena.rows := w.arena.rows ++ ids } := bind_of_ok (addRow_ok fits)
  have room' : w.arena.nodes.size < Arena.capacity := room
  simp only [build, resolved]
  refine (bind_of_ok stored).trans ?_
  simp only [addNode, Arena.addNode, if_pos room']
  rfl

private theorem mapM_replicate {made : Array NodeId} {id : NodeId} (held : made[0]? = some id) (n : Nat) :
    (List.replicate n 0).mapM (made[·]?) = some (List.replicate n id) := by
  induction n with
  | zero => rfl
  | succ n ih =>
    rw [List.replicate_succ, List.mapM_cons, held, ih]
    rfl

/-- Blocks of the first node fill the table of rows with it. -/
private theorem buildShared_blocks (rest : List (List String × Step)) {length : Nat}
    (fits : length ≤ Arena.longest) {first : NodeId} (count : Nat) (held : made[0]? = some first)
    (room : w.arena.size + count ≤ Arena.capacity) :
    ∃ made' w', buildShared
        (List.replicate count ([], form (.block (List.replicate length 0))) ++ rest) made w =
          buildShared rest made' w' ∧
      Keeps made made' ∧ made'.size = made.size + count ∧ w'.arena.size = w.arena.size + count ∧
      w'.arena.rows.toList = w.arena.rows.toList ++ List.replicate (count * length) first := by
  induction count generalizing w made with
  | zero =>
    refine ⟨made, w, rfl, fun _ _ found => found, rfl, rfl, ?_⟩
    rw [Nat.zero_mul, List.replicate_zero, List.append_nil]
  | succ count ih =>
    let v := addBlock w (List.replicate length first)
    have built : (form (.block (List.replicate length 0))).build made none w = .ok ⟨w.arena.size⟩ v :=
      build_block (mapM_replicate held length) (by rwa [List.length_replicate]) (by omega)
    have size : v.arena.size = w.arena.size + 1 := Array.size_push _
    have rows : v.arena.rows.toList = w.arena.rows.toList ++ List.replicate length first :=
      Array.toList_appendList
    have kept : Keeps made (made.push ⟨w.arena.size⟩) := by
      intro k id found
      have lt : k < made.size := (Array.getElem?_eq_some_iff.mp found).1
      rw [Array.getElem?_push, if_neg (Nat.ne_of_lt lt), found]
    obtain ⟨made', w', done, kept', count', size', rows'⟩ := ih (w := v) (kept held) (by omega)
    refine ⟨made', w', (buildShared_cons rfl built).trans done, fun _ _ found => kept' (kept found),
      ?_, ?_, ?_⟩
    · rw [count', Array.size_push]
      omega
    · rw [size', size]
      omega
    · rw [rows', rows, List.append_assoc, List.replicate_append_replicate, Nat.succ_mul, Nat.add_comm]

/-- Two nodes, blocks of the first one with rows of the given length, and a block of the second one. -/
def overlap (count length : Nat) : List (List String × Step) :=
  ([], form .breakOut) :: ([], form .continueOn) ::
    (List.replicate count ([], form (.block (List.replicate length 0))) ++ [([], form (.block [1]))])

section
variable {count length : Nat}

private theorem lt_of_mem_refs_overlap {k r : Nat} {call : List String × Step}
    (held : (overlap count length)[k]? = some call) (mem : r ∈ call.2.refs) : r < k := by
  match k with
  | 0 | 1 =>
    cases held
    cases mem
  | k + 2 =>
    rcases List.mem_append.mp (List.mem_of_getElem? (l := _ ++ _) held) with block | last
    · rw [List.eq_of_mem_replicate block] at mem
      rw [List.eq_of_mem_replicate mem]
      exact Nat.succ_pos _
    · rw [List.mem_singleton.mp last] at mem
      rw [List.mem_singleton.mp mem]
      exact Nat.succ_lt_succ (Nat.succ_pos k)

private theorem rowsFit_overlap (fits : length ≤ Arena.longest) :
    ∀ call ∈ overlap count length, call.2.RowsFit := by
  intro call mem
  rw [overlap, List.mem_cons, List.mem_cons, List.mem_append] at mem
  rcases mem with rfl | rfl | block | last
  · trivial
  · trivial
  · rw [List.eq_of_mem_replicate block]
    exact Nat.le_trans (Nat.le_of_eq List.length_replicate) fits
  · rw [List.mem_singleton.mp last]
    exact Nat.le_of_ble_eq_true rfl

private theorem nodes_overlap :
    ((overlap count length).map fun call => call.2.nodes).sum = count + 3 := by
  simp only [overlap, nodes, List.map_cons, List.map_append, List.map_replicate, List.map_nil,
    List.sum_cons, List.sum_append_nat, List.sum_replicate_nat, List.sum_nil]
  omega

private theorem slice?_replicate {table : Array NodeId} {id : NodeId} {start n : Nat}
    (filled : table.toList = List.replicate n id) (inside : start + length ≤ n) :
    Arena.slice? table start length = some (List.replicate length id) := by
  have size : start + length ≤ table.size := by
    rwa [← Array.length_toList, filled, List.length_replicate]
  have rest : min (start + length - start) (n - start) = length := by omega
  rw [Arena.slice?, if_pos size, Array.toList_extract, List.extract_eq_take_drop, filled,
    List.drop_replicate, List.take_replicate, rest]

/-- If the start of the last row is cut, an older entry stands there. -/
private theorem buildShared_overlap (count : Nat) (fits : length ≤ Arena.longest) (room : count + 2 < Arena.capacity)
    (cut : Arena.startAt (count * length) < count * length) :
    ∃ made w, buildShared (overlap count length) #[] ⟨.empty, .fresh⟩ = .ok made w ∧
      made[1]? = some ⟨1⟩ ∧ made[count + 2]? = some ⟨count + 2⟩ ∧
      w.arena.form? w.interner ⟨count + 2⟩ = some (.block [⟨0⟩]) := by
  let v : Workspace := ⟨⟨#[⟨.breakOut, .nth 0⟩, ⟨.continueOn, .nth 1⟩], #[], #[]⟩, .fresh⟩
  have leaves (rest : List (List String × Step)) :
      buildShared (([], form .breakOut) :: ([], form .continueOn) :: rest) #[] ⟨.empty, .fresh⟩ =
        buildShared rest #[⟨0⟩, ⟨1⟩] v := rfl
  have first : (#[⟨0⟩, ⟨1⟩] : Array NodeId)[0]? = some ⟨0⟩ := rfl
  have room' : v.arena.size + count ≤ Arena.capacity := by
    change 2 + count ≤ _
    omega
  obtain ⟨made, w, blocks, kept, made_size, size, rows⟩ :=
    buildShared_blocks [([], form (.block [1]))] fits count first room'
  have made_size : made.size = count + 2 := made_size.trans (Nat.add_comm ..)
  have size : w.arena.size = count + 2 := size.trans (Nat.add_comm ..)
  have filled : w.arena.rows.toList = List.replicate (count * length) ⟨0⟩ :=
    rows.trans (List.nil_append _)
  have long : w.arena.rows.size = count * length := by
    rw [← Array.length_toList, filled, List.length_replicate]
  have second : made[1]? = some ⟨1⟩ := kept rfl
  have found : [1].mapM (made[·]?) = some [(⟨1⟩ : NodeId)] := by
    rw [List.mapM_cons, second]
    rfl
  have built := build_block found (Nat.le_of_ble_eq_true rfl) (size ▸ room)
  have row : (addBlock w [⟨1⟩]).arena.row? ⟨Arena.startAt w.arena.rows.size, 1⟩ = some [⟨0⟩] := by
    rw [long]
    exact Arena.slice?_append (slice?_replicate filled cut) [⟨1⟩]
  have node : (addBlock w [⟨1⟩]).arena.node? ⟨w.arena.size⟩ =
      some ⟨.block ⟨Arena.startAt w.arena.rows.size, 1⟩, .nth w.arena.size⟩ :=
    Array.getElem?_push_size
  refine ⟨made.push ⟨w.arena.size⟩, addBlock w [⟨1⟩],
    (leaves _).trans (blocks.trans ((buildShared_cons rfl built).trans rfl)), ?_, ?_, ?_⟩
  · rw [Array.getElem?_push, if_neg (by omega), second]
  · rw [← made_size, Array.getElem?_push_size, size, made_size]
  · rw [← size, Arena.form?, node, Option.bind_some, Arena.formOf?, row]
    rfl

end

/-- The last block refers to the second node and reads back as one of the first: in front of its row
are 65534 entries more than there are starts, and the entry at that place is the first node. -/
theorem buildShared_misreads :
    let calls := overlap 65538 65535
    (∀ (k : Nat) call, calls[k]? = some call → ∀ r ∈ call.2.refs, r < k) ∧
    (∀ call ∈ calls, call.2.RowsFit) ∧
    (calls.map fun call => call.2.nodes).sum < 4294967295 ∧
    ∃ made w id, buildShared calls #[] ⟨.empty, .fresh⟩ = .ok made w ∧ made[65540]? = some id ∧
      w.arena.form? w.interner id = some (.block [⟨0⟩]) ∧
      ¬(form (.block [1])).Made w.arena w.interner made id := by
  intro calls
  have fits : 65535 ≤ Arena.longest := Nat.le_refl _
  refine ⟨fun k call held r mem => lt_of_mem_refs_overlap held mem, rowsFit_overlap fits, ?_, ?_⟩
  · rw [nodes_overlap]
    decide
  · obtain ⟨made, w, built, second, last, read⟩ :=
      buildShared_overlap 65538 fits (by decide) (by decide)
    refine ⟨made, w, _, built, last, read, ?_⟩
    rintro ⟨described, resolved, read'⟩
    rw [Form.resolve?, List.mapM_cons, second] at resolved
    cases resolved
    rw [read] at read'
    cases read'

end Step
end ShapeScript
