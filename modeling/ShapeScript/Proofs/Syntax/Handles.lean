import ShapeScript.Syntax.Arena

/-!
# Handles of an arena

Whatever an arena is asked to store, in any order and with refused requests in between, a handle that
it has given out stands for what it was given out for, and it does so for ever
(`Arena.handles_kept`). This rests on two facts about a single request: what is stored stays as it is
(`Arena.Extends.serve`), and what is new comes behind it (`Arena.start_eq_of_serve`). The latter needs
side tables that are short enough for the starts of ranges to be exact (`Arena.Short`).
-/

namespace ShapeScript.Arena

/-! ## Requests -/

/-- What an arena can be asked to store. -/
inductive Request where
  | node (node : Node)
  | row (ids : List NodeId)
  | cases (arms : List Case)
deriving DecidableEq

/-- What stands for something stored. -/
inductive Handle where
  | node (id : NodeId)
  | row (range : RowRange)
  | cases (range : CaseRange)
deriving DecidableEq

/-- A handle, or why there is none. -/
abbrev Answer := Except Overflow Handle

variable {a b c : Arena} {handle handle' : Handle} {request : Request} {requests : List Request}

/-- Serves a request. A refusal may have changed the arena as well. -/
def serve (a : Arena) : Request → Answer × Arena
  | .node node => ((a.addNode node).1.map .node, (a.addNode node).2)
  | .row ids => ((a.addRow ids).1.map .row, (a.addRow ids).2)
  | .cases arms => ((a.addCases arms).1.map .cases, (a.addCases arms).2)

/-- Serves requests in order and lists each with its answer. -/
def serveAll (a : Arena) : List Request → List (Request × Answer) × Arena
  | [] => ([], a)
  | request :: rest =>
    let (answer, a) := a.serve request
    let (log, a) := a.serveAll rest
    ((request, answer) :: log, a)

/-- What a handle stands for. -/
def readBack? (a : Arena) : Handle → Option Request
  | .node id => (a.node? id).map .node
  | .row range => (a.row? range).map .row
  | .cases range => (a.cases? range).map .cases

/-! ## Places in the tables -/

inductive Table where
  | nodes
  | rows
  | cases
deriving DecidableEq

/-- How many entries a table has. -/
def extent (a : Arena) : Table → Nat
  | .nodes => a.nodes.size
  | .rows => a.rows.size
  | .cases => a.cases.size

/-- Every entry of a side table is within the reach of a start. -/
structure Short (a : Arena) : Prop where
  rows : a.rows.size < 4294967296
  cases : a.cases.size < 4294967296

/-- So many entries behind so many others can be told from older ones: there are none, or they begin
within the reach of a start. -/
def InReach (entries before : Nat) : Prop := entries ≠ 0 → before < 4294967296

theorem inReach_zero (before : Nat) : InReach 0 before := fun some => absurd rfl some

theorem Short.of_extent_le (h : b.Short) (le : ∀ table, a.extent table ≤ b.extent table) : a.Short :=
  ⟨Nat.lt_of_le_of_lt (le .rows) h.rows, Nat.lt_of_le_of_lt (le .cases) h.cases⟩

namespace Handle

def table : Handle → Table
  | node _ => .nodes
  | row _ => .rows
  | cases _ => .cases

/-- The first entry that a handle covers. -/
def start : Handle → Nat
  | node id => id.index
  | row range => range.start
  | cases range => range.start

/-- The first entry behind those that a handle covers. -/
def stop : Handle → Nat
  | node id => id.index + 1
  | row range => range.start + range.length
  | cases range => range.start + range.length

/-- Numbers and starts fit in 32 bits, lengths in 16. -/
def FitsWords (h : Handle) : Prop :=
  h.start < 4294967296 ∧ match h with
    | node _ => True
    | row range => range.length < 65536
    | cases range => range.length < 65536

end Handle

namespace Request

def isNode : Request → Bool
  | node _ => true
  | row _ | cases _ => false

/-- There is room for it in an arena with the given number of nodes. -/
def Fits (nodes : Nat) : Request → Prop
  | node _ => nodes < capacity
  | row ids => ids.length ≤ longest
  | cases arms => arms.length ≤ longest

end Request

/-! ## What is stored stays -/

/-- Whatever a handle stands for in `a`, it stands for in `b`. -/
structure Extends (a b : Arena) : Prop where
  readBack? : ∀ {h r}, a.readBack? h = some r → b.readBack? h = some r

namespace Extends

theorem refl (a : Arena) : a.Extends a := ⟨id⟩

theorem trans (h : a.Extends b) (h' : b.Extends c) : a.Extends c :=
  ⟨fun readsBack => h'.readBack? (h.readBack? readsBack)⟩

theorem node? (h : a.Extends b) {id : NodeId} {node : Node} (held : a.node? id = some node) :
    b.node? id = some node := by
  have readsBack : a.readBack? (.node id) = some (.node node) := by
    rw [Arena.readBack?, held, Option.map_some]
  obtain ⟨_, found, same⟩ := Option.map_eq_some_iff.mp (h.readBack? readsBack)
  cases same
  exact found

theorem row? (h : a.Extends b) {range : RowRange} {ids : List NodeId}
    (held : a.row? range = some ids) : b.row? range = some ids := by
  have readsBack : a.readBack? (.row range) = some (.row ids) := by
    rw [Arena.readBack?, held, Option.map_some]
  obtain ⟨_, found, same⟩ := Option.map_eq_some_iff.mp (h.readBack? readsBack)
  cases same
  exact found

theorem cases? (h : a.Extends b) {range : CaseRange} {arms : List Case}
    (held : a.cases? range = some arms) : b.cases? range = some arms := by
  have readsBack : a.readBack? (.cases range) = some (.cases arms) := by
    rw [Arena.readBack?, held, Option.map_some]
  obtain ⟨_, found, same⟩ := Option.map_eq_some_iff.mp (h.readBack? readsBack)
  cases same
  exact found

end Extends

section
variable {α : Type} {table : Array α} {start length : Nat} {entries : List α}

theorem size_append (table : Array α) (more : List α) :
    (table ++ more).size = table.size + more.length := by
  rw [← Array.length_toList, Array.toList_appendList, List.length_append, Array.length_toList]

theorem inside_of_slice? (held : slice? table start length = some entries) :
    start + length ≤ table.size ∧ entries.length = length := by
  rw [slice?] at held
  split at held
  next inside =>
    cases held
    refine ⟨inside, ?_⟩
    rw [Array.length_toList, Array.size_extract]
    omega
  next => cases held

theorem slice?_append (held : slice? table start length = some entries) (more : List α) :
    slice? (table ++ more) start length = some entries := by
  have inside := (inside_of_slice? held).1
  have inside' : start + length ≤ (table ++ more).size :=
    size_append table more ▸ Nat.le_trans inside (Nat.le_add_right ..)
  have before : start + length ≤ table.toList.length := by rwa [Array.length_toList]
  have same : ((table ++ more).extract start (start + length)).toList =
      (table.extract start (start + length)).toList := by
    rw [Array.toList_extract, Array.toList_extract, Array.toList_appendList,
      List.extract_eq_take_drop, List.extract_eq_take_drop,
      List.drop_append_of_le_length (by omega), List.take_append_of_le_length]
    rw [List.length_drop]
    omega
  rw [slice?, if_pos inside] at held
  rw [slice?, if_pos inside', same, held]

theorem slice?_append_self (table : Array α) (more : List α) :
    slice? (table ++ more) table.size more.length = some more := by
  rw [slice?, if_pos (Nat.le_of_eq (size_append table more).symm)]
  simp

/-- A range behind the old entries reads back as many entries of the table, and the new ones if its
start is exact. -/
theorem exists_slice?_startAt (table : Array α) (more : List α) :
    ∃ entries, slice? (table ++ more) (startAt table.size) more.length = some entries ∧
      entries.length = more.length ∧ (∀ entry ∈ entries, entry ∈ (table ++ more).toList) ∧
      (InReach more.length table.size → entries = more) := by
  have inside : startAt table.size + more.length ≤ (table ++ more).size := by
    rw [size_append]
    exact Nat.add_le_add_right (startAt_le _) _
  have held : slice? (table ++ more) (startAt table.size) more.length =
      some ((table ++ more).extract (startAt table.size) (startAt table.size + more.length)).toList :=
    if_pos inside
  have length := (inside_of_slice? held).2
  refine ⟨_, held, length, fun entry mem => ?_, fun reach => ?_⟩
  · rw [Array.toList_extract, List.extract_eq_take_drop] at mem
    exact List.mem_of_mem_drop (List.mem_of_mem_take mem)
  · cases more with
    | nil => exact List.eq_nil_of_length_eq_zero length
    | cons first rest =>
      rw [startAt_of_lt (reach (Nat.succ_ne_zero _))] at held ⊢
      exact Option.some.inj (held.symm.trans (slice?_append_self table _))

end

theorem extends_nodes (a : Arena) (node : Node) :
    a.Extends { a with nodes := a.nodes.push node } := by
  refine ⟨fun {handle request} readsBack => ?_⟩
  cases handle with
  | node id =>
    obtain ⟨held, found, rfl⟩ := Option.map_eq_some_iff.mp readsBack
    have lt : id.index < a.nodes.size := (Array.getElem?_eq_some_iff.mp found).1
    have other : id ≠ ⟨a.size⟩ := fun same => Nat.ne_of_lt lt (congrArg NodeId.index same)
    rw [readBack?, node?_push, if_neg other, found, Option.map_some]
  | row | cases => exact readsBack

theorem extends_rows (a : Arena) (ids : List NodeId) :
    a.Extends { a with rows := a.rows ++ ids } := by
  refine ⟨fun {handle request} readsBack => ?_⟩
  cases handle with
  | row range =>
    obtain ⟨held, found, rfl⟩ := Option.map_eq_some_iff.mp readsBack
    exact Option.map_eq_some_iff.mpr ⟨held, slice?_append found ids, rfl⟩
  | node | cases => exact readsBack

theorem extends_cases (a : Arena) (arms : List Case) :
    a.Extends { a with cases := a.cases ++ arms } := by
  refine ⟨fun {handle request} readsBack => ?_⟩
  cases handle with
  | cases range =>
    obtain ⟨held, found, rfl⟩ := Option.map_eq_some_iff.mp readsBack
    exact Option.map_eq_some_iff.mpr ⟨held, slice?_append found arms, rfl⟩
  | node | row => exact readsBack

/-! ## One request -/

theorem serve_node (a : Arena) (node : Node) :
    a.serve (.node node) =
      if a.size < capacity then (.ok (.node ⟨a.size⟩), { a with nodes := a.nodes.push node })
      else (.error .tooManyNodes, a) := by
  rw [serve, addNode, size]
  split <;> rfl

/-- The entries are stored even if the row is refused. -/
theorem serve_row (a : Arena) (ids : List NodeId) :
    a.serve (.row ids) =
      (if ids.length ≤ longest then .ok (.row ⟨startAt a.rows.size, ids.length⟩)
        else .error .rowTooLong,
        { a with rows := a.rows ++ ids }) := by
  rw [serve, addRow]
  split <;> rfl

theorem serve_cases (a : Arena) (arms : List Case) :
    a.serve (.cases arms) =
      (if arms.length ≤ longest then .ok (.cases ⟨startAt a.cases.size, arms.length⟩)
        else .error .casesTooLong,
        { a with cases := a.cases ++ arms }) := by
  rw [serve, addCases]
  split <;> rfl

theorem Extends.serve (a : Arena) (request : Request) : a.Extends (a.serve request).2 := by
  cases request with
  | node node =>
    rw [serve_node]
    split
    · exact extends_nodes a node
    · exact .refl a
  | row ids =>
    rw [serve_row]
    exact extends_rows a ids
  | cases arms =>
    rw [serve_cases]
    exact extends_cases a arms

/-- A new handle stands for what was asked for. -/
theorem readBack?_of_serve (short : a.Short) (served : (a.serve request).1 = .ok handle) :
    (a.serve request).2.readBack? handle = some request := by
  cases request with
  | node node =>
    rw [serve_node] at served ⊢
    split at served
    next room =>
      cases served
      rw [if_pos room, readBack?, node?_push, if_pos rfl, Option.map_some]
    next => cases served
  | row ids =>
    rw [serve_row] at served ⊢
    split at served
    next =>
      cases served
      rw [startAt_of_lt short.rows]
      exact Option.map_eq_some_iff.mpr ⟨ids, slice?_append_self a.rows ids, rfl⟩
    next => cases served
  | cases arms =>
    rw [serve_cases] at served ⊢
    split at served
    next =>
      cases served
      rw [startAt_of_lt short.cases]
      exact Option.map_eq_some_iff.mpr ⟨arms, slice?_append_self a.cases arms, rfl⟩
    next => cases served

/-- A new handle covers the entries that are new in its table. -/
theorem start_eq_of_serve (short : a.Short) (served : (a.serve request).1 = .ok handle) :
    handle.start = a.extent handle.table ∧
      handle.stop = (a.serve request).2.extent handle.table := by
  cases request with
  | node node =>
    rw [serve_node] at served ⊢
    split at served
    next room =>
      cases served
      rw [if_pos room]
      exact ⟨rfl, (Array.size_push node).symm⟩
    next => cases served
  | row ids =>
    rw [serve_row] at served ⊢
    split at served
    next =>
      cases served
      rw [startAt_of_lt short.rows]
      exact ⟨rfl, (size_append _ _).symm⟩
    next => cases served
  | cases arms =>
    rw [serve_cases] at served ⊢
    split at served
    next =>
      cases served
      rw [startAt_of_lt short.cases]
      exact ⟨rfl, (size_append _ _).symm⟩
    next => cases served

theorem extent_le_serve (a : Arena) (request : Request) (table : Table) :
    a.extent table ≤ (a.serve request).2.extent table := by
  cases request with
  | node node =>
    rw [serve_node]
    split
    next =>
      cases table with
      | nodes =>
        rw [extent, extent, Array.size_push]
        exact Nat.le_succ _
      | rows | cases => exact Nat.le_refl _
    next => exact Nat.le_refl _
  | row ids =>
    rw [serve_row]
    cases table with
    | rows =>
      rw [extent, extent, size_append]
      exact Nat.le_add_right ..
    | nodes | cases => exact Nat.le_refl _
  | cases arms =>
    rw [serve_cases]
    cases table with
    | cases =>
      rw [extent, extent, size_append]
      exact Nat.le_add_right ..
    | nodes | rows => exact Nat.le_refl _

theorem fitsWords_of_serve (served : (a.serve request).1 = .ok handle) : handle.FitsWords := by
  cases request with
  | node node =>
    rw [serve_node] at served
    split at served
    next room =>
      cases served
      exact ⟨room, trivial⟩
    next => cases served
  | row ids =>
    rw [serve_row] at served
    split at served
    next fits =>
      cases served
      exact ⟨startAt_lt _, Nat.lt_succ_of_le fits⟩
    next => cases served
  | cases arms =>
    rw [serve_cases] at served
    split at served
    next fits =>
      cases served
      exact ⟨startAt_lt _, Nat.lt_succ_of_le fits⟩
    next => cases served

theorem exists_ok_serve_iff (a : Arena) (request : Request) :
    (∃ handle, (a.serve request).1 = .ok handle) ↔ request.Fits a.size := by
  cases request with
  | node node =>
    rw [serve_node]
    split <;> simp [Request.Fits, *]
  | row ids =>
    rw [serve_row]
    split <;> simp [Request.Fits, *]
  | cases arms =>
    rw [serve_cases]
    split <;> simp [Request.Fits, *]

/-! ## Many requests -/

theorem map_fst_serveAll (a : Arena) (requests : List Request) :
    (a.serveAll requests).1.map Prod.fst = requests := by
  induction requests generalizing a with
  | nil => rfl
  | cons request rest ih => exact congrArg (request :: ·) (ih _)

theorem Extends.serveAll (a : Arena) (requests : List Request) :
    a.Extends (a.serveAll requests).2 := by
  induction requests generalizing a with
  | nil => exact .refl a
  | cons request rest ih => exact (Extends.serve a request).trans (ih _)

theorem extent_le_serveAll (a : Arena) (requests : List Request) (table : Table) :
    a.extent table ≤ (a.serveAll requests).2.extent table := by
  induction requests generalizing a with
  | nil => exact Nat.le_refl _
  | cons request rest ih => exact Nat.le_trans (extent_le_serve a request table) (ih _)

/-- A handle in the log was given out by the arena as it was at that time. -/
theorem exists_serve_of_mem (mem : (request, Except.ok handle) ∈ (a.serveAll requests).1) :
    ∃ b : Arena, (b.serve request).1 = .ok handle ∧
      (b.serve request).2.Extends (a.serveAll requests).2 ∧
      ∀ table, a.extent table ≤ b.extent table ∧
        (b.serve request).2.extent table ≤ (a.serveAll requests).2.extent table := by
  induction requests generalizing a with
  | nil => cases mem
  | cons first rest ih =>
    rcases List.mem_cons.mp mem with head | tail
    · obtain ⟨rfl, served⟩ := Prod.mk.inj head
      exact ⟨a, served.symm, .serveAll _ rest, fun table =>
        ⟨Nat.le_refl _, extent_le_serveAll _ rest table⟩⟩
    · obtain ⟨b, served, grown, between⟩ := ih tail
      refine ⟨b, served, grown, fun table => ⟨?_, (between table).2⟩⟩
      exact Nat.le_trans (extent_le_serve a first table) (between table).1

/-- Tables that are short in the end have been short all along. -/
theorem exists_serve_of_mem_of_short (short : (a.serveAll requests).2.Short)
    (mem : (request, Except.ok handle) ∈ (a.serveAll requests).1) :
    ∃ b : Arena, b.Short ∧ (b.serve request).1 = .ok handle ∧
      (b.serve request).2.Extends (a.serveAll requests).2 ∧
      ∀ table, a.extent table ≤ b.extent table := by
  obtain ⟨b, served, grown, between⟩ := exists_serve_of_mem mem
  refine ⟨b, short.of_extent_le fun table => ?_, served, grown, fun table => (between table).1⟩
  exact Nat.le_trans (extent_le_serve b request table) (between table).2

theorem readBack?_of_mem (short : (a.serveAll requests).2.Short)
    (mem : (request, Except.ok handle) ∈ (a.serveAll requests).1) :
    (a.serveAll requests).2.readBack? handle = some request := by
  obtain ⟨b, short, served, grown, -⟩ := exists_serve_of_mem_of_short short mem
  exact grown.readBack? (readBack?_of_serve short served)

/-- New handles come behind everything that was there before. -/
theorem extent_le_start_of_mem (short : (a.serveAll requests).2.Short)
    (mem : (request, Except.ok handle) ∈ (a.serveAll requests).1) :
    a.extent handle.table ≤ handle.start := by
  obtain ⟨b, short, served, -, before⟩ := exists_serve_of_mem_of_short short mem
  rw [(start_eq_of_serve short served).1]
  exact before handle.table

theorem pairwise_serveAll (short : (a.serveAll requests).2.Short) :
    (a.serveAll requests).1.Pairwise fun entry entry' =>
      ∀ {h h'}, entry.2 = .ok h → entry'.2 = .ok h' → h.table = h'.table → h.stop ≤ h'.start := by
  induction requests generalizing a with
  | nil => exact .nil
  | cons first rest ih =>
    have first' : a.Short := short.of_extent_le (extent_le_serveAll a (first :: rest))
    refine .cons ?_ (ih short)
    rintro ⟨request, answer⟩ mem h h' served rfl same
    rw [(start_eq_of_serve first' served).2, same]
    exact extent_le_start_of_mem short mem

theorem size_serveAll (fits : a.size ≤ capacity) (requests : List Request) :
    (a.serveAll requests).2.size = min (a.size + requests.countP Request.isNode) capacity := by
  induction requests generalizing a with
  | nil => exact (Nat.min_eq_left fits).symm
  | cons request rest ih =>
    change ((a.serve request).2.serveAll rest).2.size = _
    cases request with
    | node node =>
      rw [serve_node, List.countP_cons_of_pos rfl]
      split
      next room =>
        have size : Arena.size { a with nodes := a.nodes.push node } = a.size + 1 :=
          Array.size_push node
        rw [ih (size ▸ room), size, Nat.add_right_comm, Nat.add_assoc]
      next full =>
        rw [ih fits]
        omega
    | row ids =>
      rw [serve_row, List.countP_cons_of_neg Bool.false_ne_true]
      exact ih fits
    | cases arms =>
      rw [serve_cases, List.countP_cons_of_neg Bool.false_ne_true]
      exact ih fits

/-! ## What holders of handles can rely on -/

/-- An arena that has served the logged requests, and the same arena at a later time. -/
structure Keeps (requests : List Request) (log : List (Request × Answer)) (a later : Arena) :
    Prop where
  /-- Every request has got an answer. -/
  logged : log.map Prod.fst = requests
  /-- A handle stands for what it was given out for, also at any later time. -/
  readsBack : ∀ {request handle}, (request, .ok handle) ∈ log →
    later.readBack? handle = some request
  /-- In its table a handle comes behind all that were given out before, so no entry belongs to two of
  them. -/
  ascending : log.Pairwise fun entry entry' =>
    ∀ {h h'}, entry.2 = .ok h → entry'.2 = .ok h' → h.table = h'.table → h.stop ≤ h'.start
  /-- The next request is refused exactly if there is no room for it. -/
  accepts_iff : ∀ request, (∃ handle, (a.serve request).1 = .ok handle) ↔
    request.Fits (requests.countP Request.isNode)
  empty_row : later.row? .empty = some []
  empty_cases : later.cases? .empty = some []
  /-- The parts of a handle have room in their words. -/
  fitsWords : ∀ {request handle}, (request, .ok handle) ∈ log → handle.FitsWords

/-- Whatever is requested of a new arena, refused or not, while its side tables are short, it keeps its
handles through whatever is requested of it next. -/
theorem handles_kept (earlier later : List Request) (short : (empty.serveAll earlier).2.Short) :
    let served := empty.serveAll earlier
    Keeps earlier served.1 served.2 (served.2.serveAll later).2 := by
  intro served
  exact {
    logged := map_fst_serveAll empty earlier
    readsBack := fun mem => (Extends.serveAll _ later).readBack? (readBack?_of_mem short mem)
    ascending := pairwise_serveAll short
    accepts_iff := by
      intro request
      have size := size_serveAll (a := empty) (Nat.zero_le _) earlier
      rw [exists_ok_serve_iff, size, show empty.size = 0 from rfl, Nat.zero_add]
      cases request with
      | node =>
        rw [Request.Fits, Request.Fits]
        omega
      | row | cases => exact .rfl
    empty_row := by simp [row?, slice?, RowRange.empty]
    empty_cases := by simp [cases?, slice?, CaseRange.empty]
    fitsWords := by
      intro request handle mem
      obtain ⟨b, given, -⟩ := exists_serve_of_mem mem
      exact fitsWords_of_serve given }

/-- A refused row has left its entries in the table, and the next row comes behind them. -/
theorem handles_kept_of_refused_row :
    ∃ ids : List NodeId, ids.length = 65536 ∧
      let served := empty.serveAll [.row [⟨0⟩], .row ids, .row [⟨1⟩, ⟨0⟩]]
      served.2.Short ∧
      served.1.map Prod.snd =
        [.ok (.row ⟨0, 1⟩), .error .rowTooLong, .ok (.row ⟨65537, 2⟩)] ∧
      served.2.readBack? (.row ⟨0, 1⟩) = some (.row [⟨0⟩]) ∧
      served.2.readBack? (.row ⟨65537, 2⟩) = some (.row [⟨1⟩, ⟨0⟩]) := by
  obtain ⟨ids, length⟩ : ∃ ids : List NodeId, ids.length = 65536 :=
    ⟨List.replicate 65536 ⟨0⟩, List.length_replicate⟩
  refine ⟨ids, length, ?_⟩
  intro served
  have log : served.1 = [(.row [⟨0⟩], .ok (.row ⟨0, 1⟩)), (.row ids, .error .rowTooLong),
      (.row [⟨1⟩, ⟨0⟩], .ok (.row ⟨65537, 2⟩))] := by
    simp [served, serveAll, serve_row, length, longest, empty, startAt]
  have short : served.2.Short := by
    constructor <;> simp [served, serveAll, serve_row, length, empty]
  have keeps := handles_kept [.row [⟨0⟩], .row ids, .row [⟨1⟩, ⟨0⟩]] [] short
  refine ⟨short, by rw [log]; rfl, keeps.readsBack ?_, keeps.readsBack ?_⟩
  · exact log ▸ .head _
  · exact log ▸ .tail _ (.tail _ (.head _))

end ShapeScript.Arena
