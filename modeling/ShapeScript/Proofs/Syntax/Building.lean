import ShapeScript.Syntax.Builder
import ShapeScript.Proofs.Syntax.Interner
import ShapeScript.Proofs.Syntax.Parts

/-!
# Building does not depend on the numbers of names

Two workspaces are *alike* if their arenas are the same up to the numbers of names, with the same
text behind the two numbers of a name (`Workspace.Alike`). The same steps keep two workspaces alike,
make the same nodes and fail alike (`Step.buildAll_alike`), so the same trees unfold from them
(`Workspace.Alike.tree?`). Variables of an unfolded tree have a number
(`Arena.exists_text?_of_tree?`).
-/

namespace ShapeScript

/-- The two numbers stand for the same text. -/
def SameText (i i' : Interner) (n n' : Name) : Prop :=
  ∃ text, i.text? n = some text ∧ i'.text? n' = some text

/-- The shapes are the same but for the numbers of the names in them. -/
inductive Shape.Alike (i i' : Interner) :
    Shape Name NodeId RowRange CaseRange → Shape Name NodeId RowRange CaseRange → Prop where
  | countedLoop {n n' first last body} : SameText i i' n n' →
    Alike i i' (.countedLoop n first last body) (.countedLoop n' first last body)
  | literal {n n'} : SameText i i' n n' → Alike i i' (.literal n) (.literal n')
  | ident {n n'} : SameText i i' n n' → Alike i i' (.ident n) (.ident n')
  | call {n n' args} : SameText i i' n n' → Alike i i' (.call n args) (.call n' args)
  | nameless {shape} : (∀ n first last body, shape ≠ .countedLoop n first last body) →
    (∀ n, shape ≠ .literal n) → (∀ n, shape ≠ .ident n) → (∀ n args, shape ≠ .call n args) →
    Alike i i' shape shape

/-- The nodes are the same but for the numbers of the names in them. -/
structure Node.Alike (i i' : Interner) (node node' : Node) : Prop where
  span : node.span = node'.span
  kind : node.kind.Alike i i' node'.kind

/-- The workspaces are the same but for the numbers of names. -/
structure Workspace.Alike (w w' : Workspace) : Prop where
  lawful : w.interner.Lawful
  lawful' : w'.interner.Lawful
  rows : w.arena.rows = w'.arena.rows
  cases : w.arena.cases = w'.arena.cases
  size : w.arena.size = w'.arena.size
  nodes : ∀ id, Option.Rel (Node.Alike w.interner w'.interner) (w.arena.node? id) (w'.arena.node? id)

section
variable {i i' j j' : Interner}

theorem SameText.mono (hi : i.Extends j) (hi' : i'.Extends j') {n n' : Name}
    (h : SameText i i' n n') : SameText j j' n n' := by
  obtain ⟨text, given, given'⟩ := h
  exact ⟨text, hi.text? given, hi'.text? given'⟩

theorem Shape.Alike.mono (hi : i.Extends j) (hi' : i'.Extends j')
    {kind kind' : Shape Name NodeId RowRange CaseRange} (h : kind.Alike i i' kind') :
    kind.Alike j j' kind' := by
  cases h with
  | countedLoop same => exact .countedLoop (same.mono hi hi')
  | literal same => exact .literal (same.mono hi hi')
  | ident same => exact .ident (same.mono hi hi')
  | call same => exact .call (same.mono hi hi')
  | nameless no_loop no_literal no_ident no_call =>
    exact .nameless no_loop no_literal no_ident no_call

theorem Node.Alike.mono (hi : i.Extends j) (hi' : i'.Extends j') {node node' : Node}
    (h : node.Alike i i' node') : node.Alike j j' node' := ⟨h.span, h.kind.mono hi hi'⟩

end

/-! ## Building in step -/

namespace Build

/-- Two ends of building fit: the workspaces are alike, and so are the results, or the errors are
the same. -/
inductive Matches {α : Type} (same : Interner → Interner → α → α → Prop) :
    EStateM.Result BuildError Workspace α → EStateM.Result BuildError Workspace α → Prop where
  | ok {a a' w w'} : w.Alike w' → same w.interner w'.interner a a' →
    Matches same (.ok a w) (.ok a' w')
  | error {e w w'} : w.Alike w' → Matches same (.error e w) (.error e w')

variable {α β : Type} {w w' : Workspace} {same : Interner → Interner → α → α → Prop}
  {same' : Interner → Interner → β → β → Prop}

theorem Matches.bind {m m' : Build α} {f f' : α → Build β} (h : Matches same (m w) (m' w'))
    (hf : ∀ a a' v v', v.Alike v' → same v.interner v'.interner a a' →
      Matches same' (f a v) (f' a' v')) : Matches same' ((m >>= f) w) ((m' >>= f') w') := by
  change Matches same' (EStateM.bind m f w) (EStateM.bind m' f' w')
  rw [EStateM.bind, EStateM.bind]
  generalize m w = r, m' w' = r' at h
  cases h with
  | ok alike hsame => exact hf _ _ _ _ alike hsame
  | error alike => exact .error alike

theorem intern_alike (alike : w.Alike w') (text : String) :
    Matches SameText (intern text w) (intern text w') := by
  have grown := Interner.Extends.intern w.interner text
  have grown' := Interner.Extends.intern w'.interner text
  have given := Interner.text?_intern alike.lawful text
  have given' := Interner.text?_intern alike.lawful' text
  refine .ok ⟨alike.lawful.intern text, alike.lawful'.intern text, alike.rows, alike.cases,
    alike.size, fun id => ?_⟩ ⟨text, given, given'⟩
  have node := alike.nodes id
  change Option.Rel _ (w.arena.node? id) (w'.arena.node? id)
  generalize w.arena.node? id = found, w'.arena.node? id = found' at node
  cases node with
  | none => exact .none
  | some h => exact .some (h.mono grown grown')

/-- A row is stored at the same place, and no name gets a number. -/
theorem addRow_alike (alike : w.Alike w') (ids : List NodeId) :
    Matches (fun i i' range range' => range = range' ∧ i = w.interner ∧ i' = w'.interner)
      (addRow ids w) (addRow ids w') := by
  have rows : w.arena.rows ++ ids = w'.arena.rows ++ ids := by rw [alike.rows]
  have grown : Workspace.Alike { w with arena.rows := w.arena.rows ++ ids }
      { w' with arena.rows := w'.arena.rows ++ ids } :=
    ⟨alike.lawful, alike.lawful', rows, alike.cases, alike.size, alike.nodes⟩
  by_cases short : ids.length ≤ Arena.longest
  · simp only [addRow, Arena.addRow, short, if_true]
    exact .ok grown ⟨by rw [alike.rows], rfl, rfl⟩
  · simp only [addRow, Arena.addRow, short, if_false]
    exact .error grown

theorem addCases_alike (alike : w.Alike w') (cases : List Case) :
    Matches (fun i i' range range' => range = range' ∧ i = w.interner ∧ i' = w'.interner)
      (addCases cases w) (addCases cases w') := by
  have same : w.arena.cases ++ cases = w'.arena.cases ++ cases := by rw [alike.cases]
  have grown : Workspace.Alike { w with arena.cases := w.arena.cases ++ cases }
      { w' with arena.cases := w'.arena.cases ++ cases } :=
    ⟨alike.lawful, alike.lawful', alike.rows, same, alike.size, alike.nodes⟩
  by_cases short : cases.length ≤ Arena.longest
  · simp only [addCases, Arena.addCases, short, if_true]
    exact .ok grown ⟨by rw [alike.cases], rfl, rfl⟩
  · simp only [addCases, Arena.addCases, short, if_false]
    exact .error grown

theorem store_alike (alike : w.Alike w') (form : Form NodeId) :
    Matches Shape.Alike (store form w) (store form w') := by
  cases form with
  | block stmts =>
    refine (addRow_alike alike stmts).bind fun range range' v v' alike ⟨same, _⟩ => ?_
    subst same
    exact .ok alike (.nameless nofun nofun nofun nofun)
  | countedLoop counter first last body =>
    exact (intern_alike alike counter).bind fun n n' v v' alike same => .ok alike (.countedLoop same)
  | switch scrutinee arms fallback =>
    refine (addCases_alike alike _).bind fun range range' v v' alike ⟨same, _⟩ => ?_
    subst same
    exact .ok alike (.nameless nofun nofun nofun nofun)
  | literal text =>
    exact (intern_alike alike text).bind fun n n' v v' alike same => .ok alike (.literal same)
  | ident var =>
    exact (intern_alike alike var).bind fun n n' v v' alike same => .ok alike (.ident same)
  | call function args =>
    refine (intern_alike alike function).bind fun n n' v v' alike text => ?_
    refine (addRow_alike alike args).bind fun range range' u u' alike ⟨same, hi, hi'⟩ => ?_
    subst same
    rw [← hi, ← hi'] at text
    exact .ok alike (.call text)
  | _ => exact .ok alike (.nameless nofun nofun nofun nofun)

/-- Nodes, counted from the same number on, get the same numbers. -/
theorem addNode_alike (alike : w.Alike w') {node node' : Node}
    (same : node.Alike w.interner w'.interner node') :
    Matches (fun _ _ id id' => id = id') (addNode node w) (addNode node' w') := by
  have size : w.arena.nodes.size = w'.arena.nodes.size := alike.size
  by_cases room : w.arena.nodes.size < Arena.capacity
  · have room' : w'.arena.nodes.size < Arena.capacity := size ▸ room
    simp only [addNode, Arena.addNode, room, room', if_true]
    refine .ok ⟨alike.lawful, alike.lawful', alike.rows, alike.cases, ?_, fun other => ?_⟩
      (congrArg NodeId.mk size)
    · change (w.arena.nodes.push node).size = (w'.arena.nodes.push node').size
      rw [Array.size_push, Array.size_push, size]
    · rw [Arena.node?_push, Arena.node?_push, alike.size]
      split
      · exact .some same
      · exact alike.nodes other
  · have room' : ¬w'.arena.nodes.size < Arena.capacity := size ▸ room
    simp only [addNode, Arena.addNode, room, room', if_false]
    exact .error alike

theorem place_alike (alike : w.Alike w') (form : Form NodeId) (span : Span) :
    Matches (fun _ _ id id' => id = id') (place form span w) (place form span w') :=
  (store_alike alike form).bind fun _ _ _ _ alike same => addNode_alike alike ⟨rfl, same⟩

theorem add_alike (alike : w.Alike w') (span? : Option Span) (form : Form NodeId) :
    Matches (fun _ _ id id' => id = id') (add span? form w) (add span? form w') := by
  rw [add, add, alike.size]
  exact place_alike alike form _

end Build

namespace Step

open Build

variable {w w' : Workspace}

theorem build_alike (alike : w.Alike w') (made : Array NodeId) (span? : Option Span) (step : Step) :
    Matches (fun _ _ id id' => id = id') (step.build made span? w) (step.build made span? w') := by
  have update_alike : ∀ op var value, Matches (fun _ _ id id' => id = id')
      (build.update made span? op var value w) (build.update made span? op var value w') := by
    intro op var value
    rw [build.update]
    cases made[value]? with
    | none => exact .error alike
    | some value =>
      refine (add_alike alike span? _).bind fun target target' v v' alike same => ?_
      subst same
      exact add_alike alike span? _
  cases step with
  | form described =>
    rw [build]
    cases described.resolve? (made[·]?) with
    | none => exact .error alike
    | some node => exact add_alike alike span? node
  | number value => exact add_alike alike span? _
  | set var value => exact update_alike .assign var value
  | update var op value => exact update_alike op var value

/-- The same steps make the same nodes in workspaces that are alike, and leave them alike. -/
theorem buildAll_alike (alike : w.Alike w') (steps : List (Step × Option Span)) :
    Matches (fun _ _ made made' => made = made') (buildAll steps w) (buildAll steps w') := by
  have go_alike : ∀ made, Matches (fun _ _ made made' => made = made') (buildAll.go steps made w)
      (buildAll.go steps made w') := by
    induction steps generalizing w w' with
    | nil => exact fun made => .ok alike rfl
    | cons first rest ih =>
      intro made
      refine (build_alike alike made first.2 first.1).bind fun id id' v v' alike same => ?_
      subst same
      exact ih alike _
  exact go_alike #[]

end Step

/-! ## Unfolding -/

namespace Workspace.Alike

variable {w w' : Workspace} (alike : w.Alike w')
include alike

theorem unfoldTo? (depth : Nat) (id : NodeId) :
    w.arena.unfoldTo? w.interner depth id = w'.arena.unfoldTo? w'.interner depth id := by
  induction depth generalizing id with
  | zero => rfl
  | succ depth ih =>
    have child : w.arena.unfoldTo? w.interner depth = w'.arena.unfoldTo? w'.interner depth :=
      funext ih
    have row : w.arena.row? = w'.arena.row? := by
      funext range
      rw [Arena.row?, Arena.row?, alike.rows]
    have arms : w.arena.cases? = w'.arena.cases? := by
      funext range
      rw [Arena.cases?, Arena.cases?, alike.cases]
    have found := alike.nodes id
    rw [Arena.unfoldTo?, Arena.unfoldTo?, child, row, arms]
    generalize w.arena.node? id = node, w'.arena.node? id = node' at found
    cases found with
    | none => rfl
    | @some node node' same =>
      obtain ⟨kind, span⟩ := node
      obtain ⟨kind', span'⟩ := node'
      obtain ⟨rfl, same⟩ := same
      cases same with
      | countedLoop text | literal text | ident text | call text =>
        obtain ⟨text, given, given'⟩ := text
        simp only [Option.bind_eq_bind, Option.bind_some, given, given']
      | nameless no_loop no_literal no_ident no_call =>
        cases kind with
        | countedLoop => exact absurd rfl (no_loop _ _ _ _)
        | literal => exact absurd rfl (no_literal _)
        | ident => exact absurd rfl (no_ident _)
        | call => exact absurd rfl (no_call _ _)
        | _ => rfl

theorem tree? (root : NodeId) : w.arena.tree? w.interner root = w'.arena.tree? w'.interner root := by
  rw [Arena.tree?, Arena.tree?, alike.size]
  exact alike.unfoldTo? _ root

end Workspace.Alike

/-! ## Names in an unfolded tree -/

namespace Arena

variable {a : Arena} {i : Interner} {depth : Nat} {id : NodeId} {tree : Tree}

private theorem exists_of_mem_mapM {α β : Type} {f : α → Option β} {l : List α} {l' : List β} {b : β}
    (h : l.mapM f = some l') (mem : b ∈ l') : ∃ a ∈ l, f a = some b := by
  induction l generalizing l' with
  | nil =>
    cases h
    cases mem
  | cons a rest ih =>
    rw [List.mapM_cons] at h
    simp only [Option.bind_eq_bind, Option.bind_eq_some_iff, Option.pure_def, Option.some.injEq] at h
    obtain ⟨b', first, rest', others, rfl⟩ := h
    rcases List.mem_cons.mp mem with rfl | behind
    · exact ⟨a, .head _, first⟩
    · obtain ⟨a', mem', found⟩ := ih others behind
      exact ⟨a', .tail _ mem', found⟩

private theorem exists_of_mapM_eq_some {α β : Type} {f : α → Option β} {o : Option α} {o' : Option β}
    {b : β} (h : o.mapM f = some o') (held : o' = some b) : ∃ a, f a = some b := by
  rw [held] at h
  cases o with
  | none => cases h
  | some a =>
    change some <$> f a = some (some b) at h
    obtain ⟨b', found, same⟩ := Option.map_eq_some_iff.mp h
    cases same
    exact ⟨a, found⟩

/-- Parts of an unfolded tree have been unfolded too. -/
private theorem part_of_unfoldTo? {part : Tree} {scope inner : Scope}
    (h : a.unfoldTo? i depth id = some tree) (hpart : (part, inner) ∈ tree.parts scope) :
    ∃ depth' id', a.unfoldTo? i depth' id' = some part := by
  cases depth with
  | zero => cases h
  | succ depth =>
    rw [unfoldTo?] at h
    simp only [Option.bind_eq_bind, Option.bind_eq_some_iff, Option.pure_def] at h
    obtain ⟨⟨kind, span⟩, -, h⟩ := h
    have one : ∀ {id' part'}, a.unfoldTo? i depth id' = some part' →
        ∃ depth' id', a.unfoldTo? i depth' id' = some part' := fun unfolded => ⟨_, _, unfolded⟩
    have maybe : ∀ {o o' part'}, Option.mapM (a.unfoldTo? i depth) o = some o' → o' = some part' →
        ∃ depth' id', a.unfoldTo? i depth' id' = some part' := by
      intro o o' part' unfolded held
      obtain ⟨id', unfolded⟩ := exists_of_mapM_eq_some unfolded held
      exact one unfolded
    have many : ∀ {ids trees}, List.mapM (a.unfoldTo? i depth) ids = some trees →
        ∀ part' ∈ trees, ∃ depth' id', a.unfoldTo? i depth' id' = some part' := by
      intro ids trees unfolded part' mem
      obtain ⟨id', -, unfolded⟩ := exists_of_mem_mapM unfolded mem
      exact one unfolded
    cases kind with
    | block stmts =>
      simp only [Option.bind_eq_some_iff, Option.some.injEq] at h
      obtain ⟨ids, -, trees, unfolded, rfl⟩ := h
      obtain ⟨_, mem, heq⟩ := List.mem_map.mp hpart
      cases heq
      exact many unfolded _ mem
    | call function args =>
      simp only [Option.bind_eq_some_iff, Option.some.injEq] at h
      obtain ⟨text, -, ids, -, trees, unfolded, rfl⟩ := h
      obtain ⟨_, mem, heq⟩ := List.mem_map.mp hpart
      cases heq
      exact many unfolded _ mem
    | switch scrutinee arms fallback =>
      simp only [Option.bind_eq_some_iff, Option.some.injEq] at h
      obtain ⟨cases, -, arms', unfolded, value, hvalue, last, hlast, rfl⟩ := h
      rcases List.mem_cons.mp hpart with heq | inside
      · cases heq
        exact one hvalue
      · obtain ⟨_, mem, heq⟩ := List.mem_map.mp inside
        cases heq
        rcases List.mem_append.mp mem with mem | mem
        · obtain ⟨arm, harm, mem⟩ := List.mem_flatMap.mp mem
          obtain ⟨case, -, made⟩ := exists_of_mem_mapM unfolded harm
          simp only [Option.bind_eq_some_iff, Option.some.injEq] at made
          obtain ⟨label, hlabel, body, hbody, rfl⟩ := made
          simp only [Arm.parts, List.mem_cons, List.not_mem_nil, or_false] at mem
          rcases mem with rfl | rfl
          · exact one hlabel
          · exact one hbody
        · exact maybe hlast (Option.mem_toList.mp mem)
    | _ =>
      simp only [Option.bind_eq_some_iff, Option.some.injEq] at h
      grind [Tree.parts]

/-- Every variable that an unfolded tree names has a number. -/
theorem exists_text?_of_tree? {root : NodeId} (h : a.tree? i root = some tree) {node : Tree}
    {scope inner : Scope} {var : String} (held : tree.Holds scope node inner)
    (named : node.named? = some var) : ∃ n, i.text? n = some var := by
  have unfolded : ∃ depth id, a.unfoldTo? i depth id = some tree := ⟨_, _, h⟩
  clear h
  induction held with
  | part hpart _ ih =>
    obtain ⟨depth, id, unfolded⟩ := unfolded
    exact ih named (part_of_unfoldTo? unfolded hpart)
  | @self node scope =>
    obtain ⟨depth, id, unfolded⟩ := unfolded
    cases depth with
    | zero => cases unfolded
    | succ depth =>
      rw [unfoldTo?] at unfolded
      simp only [Option.bind_eq_bind, Option.bind_eq_some_iff] at unfolded
      obtain ⟨⟨kind, span⟩, -, unfolded⟩ := unfolded
      cases kind with
      | ident n =>
        simp only [Option.bind_eq_some_iff, Option.pure_def, Option.some.injEq] at unfolded
        obtain ⟨text, given, rfl⟩ := unfolded
        cases named
        exact ⟨n, given⟩
      | countedLoop n first last body =>
        simp only [Option.bind_eq_some_iff, Option.pure_def, Option.some.injEq] at unfolded
        obtain ⟨text, given, _, -, _, -, _, -, rfl⟩ := unfolded
        cases named
        exact ⟨n, given⟩
      | _ =>
        simp only [Option.bind_eq_some_iff, Option.pure_def, Option.some.injEq] at unfolded
        grind [Tree.named?]

end Arena

end ShapeScript
