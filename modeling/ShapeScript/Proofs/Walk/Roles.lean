import ShapeScript.Compile.Tree
import ShapeScript.Proofs.Syntax.Parts
import ShapeScript.Proofs.Run.InStep

/-!
# What a node does itself

A node writes at most one variable per target (`Tree.Writes`, `Tree.targets`), needs values from
some of its parts (`Tree.operands`), and fails in few ways, each with the place to blame
(`Tree.Raises`). What its parts do is not counted here; breaks and continues are left to their
scopes.
-/

namespace ShapeScript

/-- The operator of a plain assignment is the only one that does not compute. -/
theorem AssignOp.binary?_eq_none_iff (op : AssignOp) : op.binary? = none ↔ op = .assign := by
  cases op <;> simp [binary?]

namespace Tree

/-- The node writes the variable, with a place that is blamed if it cannot. -/
inductive Writes (registry : Registry) : Tree → Write → String → Span → Prop where
  | assign {span target value var} : target.var? = some var →
    Writes registry (.assign span .assign target value) .bind var target.span
  | compound {span op target value var} : op ≠ .assign → target.var? = some var →
    Writes registry (.assign span op target value) .update var target.span
  | unary {span op operand delta var} : op.effect = .step delta → operand.var? = some var →
    Writes registry (.unary span op operand) .update var operand.span
  | suffix {span op operand delta var} : op.effect = .step delta → operand.var? = some var →
    Writes registry (.suffix span op operand) .update var operand.span
  | counter {span counter first last body} :
    Writes registry (.countedLoop span counter first last body) .bind counter span
  | reference {span function args id arg var} : registry.resolve? function args.length = some id →
    (arg, .reference) ∈ args.zip (registry.params id) → arg.var? = some var →
    Writes registry (.call span function args) .bind var arg.span

/-- The parts that need to have a value. -/
def operands (registry : Registry) : Tree → List Tree
  | .assign _ _ _ value => [value]
  | .unary _ op operand => if op.effect matches .compute _ then [operand] else []
  | .suffix _ op operand => if op.effect matches .compute _ then [operand] else []
  | .binary _ _ left right => [left, right]
  | .ternary _ cond _ _ | .branch _ cond _ _ | .whileLoop _ cond _ | .doWhile _ _ cond => [cond]
  | .forLoop _ _ cond _ _ => cond.toList
  | .countedLoop _ _ first last _ => [first, last]
  | .switch _ scrutinee _ _ => [scrutinee]
  | .call _ function args =>
    match registry.resolve? function args.length with
    | some id => ((args.zip (registry.params id)).filter (·.2 = .value)).map (·.1)
    | none => []
  | _ => []

/-- The parts that name a variable to write: targets of assignments and steps, and arguments passed
by reference. -/
def targets (registry : Registry) : Tree → List Tree
  | .assign _ _ target _ => [target]
  | .unary _ op operand => if op.effect matches .step _ then [operand] else []
  | .suffix _ op operand => if op.effect matches .step _ then [operand] else []
  | .call _ function args =>
    match registry.resolve? function args.length with
    | some id => ((args.zip (registry.params id)).filter (·.2 = .reference)).map (·.1)
    | none => []
  | _ => []

def isLoop : Tree → Bool
  | .whileLoop .. | .doWhile .. | .forLoop .. | .countedLoop .. => true
  | _ => false

/-- The node fails by itself with the fault, which is blamed on the place. -/
inductive Raises (registry : Registry) (setting : Setting) : Tree → RunFault → Span → Prop where
  | unset {span var} : Raises registry setting (.ident span var) (.uninitializedVariable var) span
  | unsetTarget {t var span} : t.Writes registry .update var span →
    Raises registry setting t (.uninitializedVariable var) span
  | constant {t how var span} : t.Writes registry how var span →
    Raises registry setting t (.constantReassignment var) span
  | noValue {t operand} : operand ∈ t.operands registry →
    Raises registry setting t .noValue operand.span
  | failed {span function args message} :
    Raises registry setting (.call span function args) (.functionFailed function message) span
  | mismatch {span function args id} : registry.resolve? function args.length = some id →
    setting.registry.function? id = none →
    Raises registry setting (.call span function args) .registryMismatch span
  | timeout {t} : t.isLoop = true → Raises registry setting t .timeout t.span
  | limit {t} : t.isLoop = true →
    Raises registry setting t (.iterationLimit setting.ceiling) t.span

/-- What a node writes is named by the node or by a part that stands in the same scope. -/
theorem Writes.named {registry : Registry} {t : Tree} {how : Write} {var : String} {span : Span}
    (h : t.Writes registry how var span) (scope : Scope) : t.named? = some var ∨
      ∃ part, (part, scope) ∈ t.parts scope ∧ part.named? = some var := by
  have named : ∀ {part : Tree}, part.var? = some var → part.named? = some var := by
    intro part h
    rw [eq_ident_of_var? h, named?]
  cases h with
  | counter => exact .inl rfl
  | assign target | compound _ target => exact .inr ⟨_, .head _, named target⟩
  | unary _ operand | suffix _ operand => exact .inr ⟨_, .head _, named operand⟩
  | reference _ harg arg =>
    exact .inr ⟨_, List.mem_map.mpr ⟨_, (List.of_mem_zip harg).1, rfl⟩, named arg⟩

theorem Writes.of_assign {registry : Registry} {span : Span} {op : AssignOp} {target value : Tree}
    {var : String} (h : target.var? = some var) :
    (Tree.assign span op target value).Writes registry
      (if op.binary?.isSome then .update else .bind) var target.span := by
  cases binary : op.binary? with
  | none =>
    cases op.binary?_eq_none_iff.mp binary
    exact .assign h
  | some op' =>
    refine .compound (fun plain => ?_) h
    rw [plain] at binary
    cases binary

/-- A node writes to one of its targets, or to its counter. -/
theorem Writes.mem_targets {registry : Registry} {t : Tree} {how : Write} {var : String}
    {span : Span} (h : t.Writes registry how var span) : .ident span var ∈ t.targets registry ∨
      ∃ first last body, t = .countedLoop span var first last body := by
  cases h with
  | assign named | compound _ named =>
    exact .inl (List.mem_singleton.mpr (eq_ident_of_var? named).symm)
  | unary effect named | suffix effect named =>
    left
    rw [targets, effect]
    exact List.mem_singleton.mpr (eq_ident_of_var? named).symm
  | counter => exact .inr ⟨_, _, _, rfl⟩
  | reference resolved harg named =>
    left
    rw [targets, resolved, ← eq_ident_of_var? named]
    exact List.mem_map.mpr ⟨_, List.mem_filter.mpr ⟨harg, decide_eq_true rfl⟩, rfl⟩

section
variable {registry : Registry} {t part : Tree}

private theorem mem_of_mem_zip_filter {α β : Type} {a : α} {l : List α} {l' : List β}
    {p : α × β → Bool} (h : a ∈ ((l.zip l').filter p).map (·.1)) : a ∈ l := by
  obtain ⟨⟨_, b⟩, hpair, rfl⟩ := List.mem_map.mp h
  exact (List.of_mem_zip (List.mem_filter.mp hpair).1).1

/-- What a node needs a value from stands in the scope of the node. -/
theorem mem_parts_of_mem_operands (h : part ∈ t.operands registry) (scope : Scope) :
    (part, scope) ∈ t.parts scope := by
  cases t with
  | call span function args =>
    rw [operands] at h
    split at h
    · exact List.mem_map_of_mem (mem_of_mem_zip_filter h)
    · cases h
  | forLoop span init cond update body =>
    have header := List.mem_append_left update.toList (List.mem_append_right init.toList h)
    exact List.mem_append_left _ (List.mem_map_of_mem header)
  | _ => grind [operands, parts]

theorem mem_parts_of_mem_targets (h : part ∈ t.targets registry) (scope : Scope) :
    (part, scope) ∈ t.parts scope := by
  cases t with
  | call span function args =>
    rw [targets] at h
    split at h
    · exact List.mem_map_of_mem (mem_of_mem_zip_filter h)
    · cases h
  | _ => grind [targets, parts]

end

variable {registry : Registry} {setting : Setting} {t : Tree} {fault : RunFault} {span : Span}

/-- Only a `break` or a `continue` is ever out of place. -/
theorem Raises.in_place (h : t.Raises registry setting fault span) :
    fault ≠ .breakOutsideLoop ∧ fault ≠ .continueOutsideLoop := by
  cases h <;> exact ⟨nofun, nofun⟩

end Tree
end ShapeScript
