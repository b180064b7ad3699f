import ShapeScript.Proofs.Syntax.Handles
import ShapeScript.Proofs.Syntax.Interner
import ShapeScript.Syntax.Tree

/-!
# Nodes as their authors wrote them

A stored node can be read back as the form it was made from (`Arena.form?`). Its reading does not
change while arena and interner grow (`Arena.form?_of_extends`), and a node unfolds to the tree of
its form with the references unfolded (`Arena.unfoldTo?_succ`).
-/

namespace ShapeScript

namespace Form

variable {ref ref' : Type}

/-- The references in a form, in order. -/
def refs : Form ref → List ref
  | .block stmts => stmts
  | .branch cond whenTrue whenFalse => cond :: whenTrue :: whenFalse.toList
  | .whileLoop cond body => [cond, body]
  | .doWhile body cond => [body, cond]
  | .forLoop init cond update body => init.toList ++ cond.toList ++ update.toList ++ [body]
  | .countedLoop _ first last body => [first, last, body]
  | .switch scrutinee arms fallback =>
    scrutinee :: arms.flatMap (fun (label, body) => [label, body]) ++ fallback.toList
  | .breakOut | .continueOn | .literal _ | .ident _ => []
  | .returnWith value => value.toList
  | .statement inner => [inner]
  | .assign _ target value => [target, value]
  | .unary _ operand => [operand]
  | .binary _ left right => [left, right]
  | .ternary cond whenTrue whenFalse => [cond, whenTrue, whenFalse]
  | .call _ args => args
  | .suffix _ operand => [operand]

/-- Replaces each reference. -/
def map (f : ref → ref') : Form ref → Form ref'
  | .block stmts => .block (stmts.map f)
  | .branch cond whenTrue whenFalse => .branch (f cond) (f whenTrue) (whenFalse.map f)
  | .whileLoop cond body => .whileLoop (f cond) (f body)
  | .doWhile body cond => .doWhile (f body) (f cond)
  | .forLoop init cond update body => .forLoop (init.map f) (cond.map f) (update.map f) (f body)
  | .countedLoop counter first last body => .countedLoop counter (f first) (f last) (f body)
  | .switch scrutinee arms fallback =>
    .switch (f scrutinee) (arms.map fun (label, body) => (f label, f body)) (fallback.map f)
  | .breakOut => .breakOut
  | .continueOn => .continueOn
  | .returnWith value => .returnWith (value.map f)
  | .statement inner => .statement (f inner)
  | .literal text => .literal text
  | .ident var => .ident var
  | .assign op target value => .assign op (f target) (f value)
  | .unary op operand => .unary op (f operand)
  | .binary op left right => .binary op (f left) (f right)
  | .ternary cond whenTrue whenFalse => .ternary (f cond) (f whenTrue) (f whenFalse)
  | .call function args => .call function (args.map f)
  | .suffix op operand => .suffix op (f operand)

/-- No row has more entries than a range can count. -/
def RowsFit : Form ref → Prop
  | .block stmts => stmts.length ≤ Arena.longest
  | .call _ args => args.length ≤ Arena.longest
  | .switch _ arms _ => arms.length ≤ Arena.longest
  | _ => True

/-- How many entries a form has in the table of rows. -/
def rowEntries : Form ref → Nat
  | .block stmts => stmts.length
  | .call _ args => args.length
  | _ => 0

/-- How many entries a form has in the table of cases. -/
def caseEntries : Form ref → Nat
  | .switch _ arms _ => arms.length
  | _ => 0

/-- The rows of a form can be told from older entries, of which the side tables have so many. -/
def InReach (form : Form ref) (rows cases : Nat) : Prop :=
  Arena.InReach form.rowEntries rows ∧ Arena.InReach form.caseEntries cases

variable {f : ref → ref'} {form : Form ref}

theorem refs_map (f : ref → ref') (form : Form ref) : (form.map f).refs = form.refs.map f := by
  cases form <;> simp [map, refs, List.map_flatMap, List.flatMap_map, Option.toList_map]

theorem rowsFit_map (f : ref → ref') (form : Form ref) : (form.map f).RowsFit ↔ form.RowsFit := by
  cases form <;> simp [map, RowsFit]

theorem rowEntries_map (f : ref → ref') (form : Form ref) :
    (form.map f).rowEntries = form.rowEntries := by
  cases form <;> simp [map, rowEntries]

theorem caseEntries_map (f : ref → ref') (form : Form ref) :
    (form.map f).caseEntries = form.caseEntries := by
  cases form <;> simp [map, caseEntries]

private theorem mapM_eq_map {α β : Type} {find? : α → Option β} {f : α → β} {l : List α}
    (h : ∀ a ∈ l, find? a = some (f a)) : l.mapM find? = some (l.map f) := by
  induction l with
  | nil => rfl
  | cons a rest ih =>
    rw [List.mapM_cons, h a (.head _), ih fun b mem => h b (.tail _ mem)]
    rfl

private theorem optional_mapM_eq_map {α β : Type} {find? : α → Option β} {f : α → β} {o : Option α}
    (h : ∀ a ∈ o.toList, find? a = some (f a)) : o.mapM find? = some (o.map f) := by
  cases o with
  | none => rfl
  | some a =>
    change some <$> find? a = _
    rw [h a (.head _)]
    rfl

/-- References that all have a replacement are replaced. -/
theorem resolve?_eq_map {find? : ref → Option ref'} (h : ∀ r ∈ form.refs, find? r = some (f r)) :
    form.resolve? find? = some (form.map f) := by
  cases form with
  | block stmts | call _ stmts =>
    have row : stmts.mapM find? = some (stmts.map f) := mapM_eq_map h
    simp only [resolve?, row]
    rfl
  | switch scrutinee arms fallback =>
    simp only [refs, List.mem_append, List.mem_cons, List.mem_flatMap] at h
    have pairs : (arms.mapM fun (label, body) => do return (← find? label, ← find? body)) =
        some (arms.map fun (label, body) => (f label, f body)) := by
      refine mapM_eq_map fun (label, body) mem => ?_
      have first := h label (.inl (.inr ⟨_, mem, .inl rfl⟩))
      have second := h body (.inl (.inr ⟨_, mem, .inr (.inl rfl)⟩))
      simp only [first, second]
      rfl
    have last := optional_mapM_eq_map (o := fallback) fun r mem => h r (.inr mem)
    simp only [resolve?, pairs, last, h scrutinee (.inl (.inl rfl))]
    rfl
  | forLoop init cond update body =>
    simp only [refs, List.mem_append, List.mem_singleton] at h
    have first := optional_mapM_eq_map (o := init) fun r mem => h r (.inl (.inl (.inl mem)))
    have second := optional_mapM_eq_map (o := cond) fun r mem => h r (.inl (.inl (.inr mem)))
    have third := optional_mapM_eq_map (o := update) fun r mem => h r (.inl (.inr mem))
    simp only [resolve?, first, second, third, h body (.inr rfl)]
    rfl
  | branch cond whenTrue whenFalse =>
    simp only [refs, List.mem_cons] at h
    have last := optional_mapM_eq_map (o := whenFalse) fun r mem => h r (.inr (.inr mem))
    simp only [resolve?, last, h cond (.inl rfl), h whenTrue (.inr (.inl rfl))]
    rfl
  | returnWith value =>
    simp only [resolve?, optional_mapM_eq_map h]
    rfl
  | _ =>
    simp only [refs, List.mem_cons, List.not_mem_nil, or_false, forall_eq_or_imp, forall_eq] at h
    simp only [resolve?, h]
    rfl

end Form

/-- The tree of a form whose references are trees. -/
def Tree.ofForm (span : Span) : Form Tree → Tree
  | .block stmts => .block span stmts
  | .branch cond whenTrue whenFalse => .branch span cond whenTrue whenFalse
  | .whileLoop cond body => .whileLoop span cond body
  | .doWhile body cond => .doWhile span body cond
  | .forLoop init cond update body => .forLoop span init cond update body
  | .countedLoop counter first last body => .countedLoop span counter first last body
  | .switch scrutinee arms fallback =>
    .switch span scrutinee (arms.map fun (label, body) => .mk label body) fallback
  | .breakOut => .breakOut span
  | .continueOn => .continueOn span
  | .returnWith value => .returnWith span value
  | .statement inner => .statement span inner
  | .literal text => .literal span text
  | .ident var => .ident span var
  | .assign op target value => .assign span op target value
  | .unary op operand => .unary span op operand
  | .binary op left right => .binary span op left right
  | .ternary cond whenTrue whenFalse => .ternary span cond whenTrue whenFalse
  | .call function args => .call span function args
  | .suffix op operand => .suffix span op operand

namespace Arena

variable {a b : Arena} {i j : Interner}

/-- The form that a stored kind was made from: names are text again, and rows are lists. -/
def formOf? (a : Arena) (i : Interner) : Shape Name NodeId RowRange CaseRange → Option (Form NodeId)
  | .block stmts => return .block (← a.row? stmts)
  | .branch cond whenTrue whenFalse => some (.branch cond whenTrue whenFalse)
  | .whileLoop cond body => some (.whileLoop cond body)
  | .doWhile body cond => some (.doWhile body cond)
  | .forLoop init cond update body => some (.forLoop init cond update body)
  | .countedLoop counter first last body =>
    return .countedLoop (← i.text? counter) first last body
  | .switch scrutinee arms fallback => do
    let arms ← a.cases? arms
    return .switch scrutinee (arms.map fun arm => (arm.label, arm.body)) fallback
  | .breakOut => some .breakOut
  | .continueOn => some .continueOn
  | .returnWith value => some (.returnWith value)
  | .statement inner => some (.statement inner)
  | .literal text => return .literal (← i.text? text)
  | .ident var => return .ident (← i.text? var)
  | .assign op target value => some (.assign op target value)
  | .unary op operand => some (.unary op operand)
  | .binary op left right => some (.binary op left right)
  | .ternary cond whenTrue whenFalse => some (.ternary cond whenTrue whenFalse)
  | .call function args => do
    let function ← i.text? function
    return .call function (← a.row? args)
  | .suffix op operand => some (.suffix op operand)

/-- The form that a node was made from. -/
def form? (a : Arena) (i : Interner) (id : NodeId) : Option (Form NodeId) :=
  (a.node? id).bind fun node => a.formOf? i node.kind

theorem formOf?_of_extends (grown : a.Extends b) (grown' : i.Extends j)
    {kind : Shape Name NodeId RowRange CaseRange} {form : Form NodeId}
    (read : a.formOf? i kind = some form) : b.formOf? j kind = some form := by
  cases kind with
  | block stmts =>
    obtain ⟨ids, row, made⟩ := Option.bind_eq_some_iff.mp read
    exact Option.bind_eq_some_iff.mpr ⟨ids, grown.row? row, made⟩
  | switch scrutinee arms fallback =>
    obtain ⟨arms, cases, made⟩ := Option.bind_eq_some_iff.mp read
    exact Option.bind_eq_some_iff.mpr ⟨arms, grown.cases? cases, made⟩
  | countedLoop n | literal n | ident n =>
    obtain ⟨text, given, made⟩ := Option.bind_eq_some_iff.mp read
    exact Option.bind_eq_some_iff.mpr ⟨text, grown'.text? given, made⟩
  | call n args =>
    obtain ⟨text, given, read⟩ := Option.bind_eq_some_iff.mp read
    obtain ⟨ids, row, made⟩ := Option.bind_eq_some_iff.mp read
    exact Option.bind_eq_some_iff.mpr ⟨text, grown'.text? given,
      Option.bind_eq_some_iff.mpr ⟨ids, grown.row? row, made⟩⟩
  | _ => exact read

/-- What can be read back of a node stays the same while arena and interner grow. -/
theorem form?_of_extends (grown : a.Extends b) (grown' : i.Extends j) {id : NodeId}
    {form : Form NodeId} (read : a.form? i id = some form) : b.form? j id = some form := by
  obtain ⟨node, held, read⟩ := Option.bind_eq_some_iff.mp read
  exact Option.bind_eq_some_iff.mpr ⟨node, grown.node? held, formOf?_of_extends grown grown' read⟩

private theorem mapM_arms (child : NodeId → Option Tree) (arms : List Case) :
    (arms.mapM fun arm : Case => do return Arm.mk (← child arm.label) (← child arm.body)) =
      ((arms.map fun arm : Case => (arm.label, arm.body)).mapM
        fun (label, body) => do return (← child label, ← child body)).map
          (List.map fun (label, body) => Arm.mk label body) := by
  induction arms with
  | nil => rfl
  | cons arm rest ih =>
    rw [List.mapM_cons, List.map_cons, List.mapM_cons, ih]
    simp only [Option.bind_eq_bind, Option.pure_def, Option.map_bind, Option.bind_map,
      Option.bind_assoc, Option.bind_some, Option.map_some, Function.comp_def, List.map_cons]

/-- A node unfolds to the tree of its form, in which references are unfolded one level less. -/
theorem unfoldTo?_succ {id : NodeId} {form : Form NodeId} {span : Span}
    (read : a.form? i id = some form) (located : a.span? id = some span) (depth : Nat) :
    a.unfoldTo? i (depth + 1) id =
      (form.resolve? (a.unfoldTo? i depth)).map (Tree.ofForm span) := by
  obtain ⟨⟨kind, span'⟩, held, read⟩ := Option.bind_eq_some_iff.mp read
  obtain rfl : span' = span := by simpa [span?, held] using located
  rw [unfoldTo?, held]
  cases kind with
  | block stmts =>
    obtain ⟨ids, row, made⟩ := Option.bind_eq_some_iff.mp read
    cases made
    simp only [row, Form.resolve?, Option.bind_eq_bind, Option.pure_def, Option.bind_some,
      Option.map_bind, Function.comp_def, Option.map_some, Tree.ofForm]
  | switch scrutinee arms fallback =>
    obtain ⟨arms, cases, made⟩ := Option.bind_eq_some_iff.mp read
    cases made
    have trees := mapM_arms (a.unfoldTo? i depth) arms
    simp only [Option.bind_eq_bind, Option.pure_def] at trees
    simp only [cases, trees, Form.resolve?, Option.bind_eq_bind, Option.pure_def, Option.bind_some,
      Option.map_bind, Option.bind_map, Function.comp_def, Option.map_some, Tree.ofForm]
  | countedLoop n | literal n | ident n =>
    obtain ⟨text, given, made⟩ := Option.bind_eq_some_iff.mp read
    cases made
    simp only [given, Form.resolve?, Option.bind_eq_bind, Option.pure_def, Option.bind_some,
      Option.map_bind, Function.comp_def, Option.map_some, Tree.ofForm]
  | call n args =>
    obtain ⟨text, given, read⟩ := Option.bind_eq_some_iff.mp read
    obtain ⟨ids, row, made⟩ := Option.bind_eq_some_iff.mp read
    cases made
    simp only [given, row, Form.resolve?, Option.bind_eq_bind, Option.pure_def, Option.bind_some,
      Option.map_bind, Function.comp_def, Option.map_some, Tree.ofForm]
  | _ =>
    cases read
    simp only [Form.resolve?, Option.bind_eq_bind, Option.pure_def, Option.bind_some,
      Option.map_bind, Function.comp_def, Option.map_some, Tree.ofForm]

end Arena
end ShapeScript
