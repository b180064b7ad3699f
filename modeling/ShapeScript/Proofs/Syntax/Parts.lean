import ShapeScript.Syntax.Scope
import ShapeScript.Syntax.Tree

/-!
# The nodes of a tree and the scopes they stand in

`Tree.parts` lists the parts of a node, each with the scope that the construct around it gives it:
bodies of loops and switches get a scope of their own, all other parts stay in that of the node.
`Tree.Holds` follows parts down to any node, and `Tree.induction_on_parts` is the induction that
every statement about all nodes uses.
-/

namespace ShapeScript

def Arm.label : Arm → Tree
  | ⟨label, _⟩ => label

def Arm.parts : Arm → List Tree
  | ⟨label, body⟩ => [label, body]

/-- The parts of a node in a scope, with the scopes that they stand in. -/
def Tree.parts (scope : Scope) : Tree → List (Tree × Scope)
  | .block _ stmts => stmts.map (·, scope)
  | .branch _ cond whenTrue whenFalse =>
    (cond :: whenTrue :: whenFalse.toList).map (·, scope)
  | .whileLoop _ cond body => [(cond, scope), (body, scope.loopBody)]
  | .doWhile _ body cond => [(body, scope.loopBody), (cond, scope)]
  | .forLoop _ init cond update body =>
    (init.toList ++ cond.toList ++ update.toList).map (·, scope) ++ [(body, scope.loopBody)]
  | .countedLoop _ _ first last body => [(first, scope), (last, scope), (body, scope.loopBody)]
  | .switch _ scrutinee arms fallback =>
    (scrutinee, scope) :: (arms.flatMap Arm.parts ++ fallback.toList).map (·, scope.switchBody)
  | .breakOut .. | .continueOn .. | .literal .. | .ident .. => []
  | .returnWith _ value => value.toList.map (·, scope)
  | .statement _ inner => [(inner, scope)]
  | .assign _ _ target value => [(target, scope), (value, scope)]
  | .unary _ _ operand | .suffix _ _ operand => [(operand, scope)]
  | .binary _ _ left right => [(left, scope), (right, scope)]
  | .ternary _ cond whenTrue whenFalse =>
    [(cond, scope), (whenTrue, scope), (whenFalse, scope)]
  | .call _ _ args => args.map (·, scope)

namespace Tree

/-- Which parts a node has does not depend on the scope. -/
theorem map_fst_parts {t : Tree} (scope scope' : Scope) :
    (t.parts scope).map (·.1) = (t.parts scope').map (·.1) := by
  cases t <;> simp [parts, Function.comp_def]

private theorem sizeOf_lt_of_mem_arms {arms : List Arm} {arm : Arm} {part : Tree}
    (harm : arm ∈ arms) (h : part ∈ arm.parts) : sizeOf part < sizeOf arms := by
  have arms_lt := List.sizeOf_lt_of_mem harm
  cases arm with
  | mk label body =>
    simp only [Arm.parts, List.mem_cons, List.not_mem_nil, or_false] at h
    rw [Arm.mk.sizeOf_spec] at arms_lt
    rcases h with rfl | rfl <;> omega

private theorem sizeOf_lt_of_eq_some {part : Tree} {o : Option Tree} (h : o = some part) :
    sizeOf part < sizeOf o := by
  rw [h, Option.some.sizeOf_spec]
  omega

theorem sizeOf_lt_of_mem_parts {t part : Tree} {scope inner : Scope}
    (h : (part, inner) ∈ t.parts scope) : sizeOf part < sizeOf t := by
  cases t
  case block | call =>
    obtain ⟨_, hp, heq⟩ := List.mem_map.mp h
    cases heq
    have := List.sizeOf_lt_of_mem hp
    grind
  case switch span scrutinee arms fallback =>
    rw [switch.sizeOf_spec]
    rcases List.mem_cons.mp h with heq | h
    · cases heq
      omega
    · obtain ⟨_, hp, heq⟩ := List.mem_map.mp h
      cases heq
      rcases List.mem_append.mp hp with hp | hp
      · obtain ⟨arm, harm, hp⟩ := List.mem_flatMap.mp hp
        have := sizeOf_lt_of_mem_arms harm hp
        omega
      · have := sizeOf_lt_of_eq_some (Option.mem_toList.mp hp)
        omega
  all_goals simp [parts] at h ⊢
  all_goals grind [sizeOf_lt_of_eq_some]

/-- Whatever passes from all parts of a node to the node holds of every node. -/
theorem induction_on_parts {motive : Tree → Scope → Prop}
    (step : ∀ t scope, (∀ part inner, (part, inner) ∈ t.parts scope → motive part inner) →
      motive t scope) (t : Tree) (scope : Scope) : motive t scope :=
  step t scope fun part inner h =>
    have := sizeOf_lt_of_mem_parts h
    induction_on_parts step part inner
termination_by sizeOf t

/-- The first tree, in its scope, has the second one as a node, which stands in the second scope. -/
inductive Holds : Tree → Scope → Tree → Scope → Prop where
  | self {t scope} : Holds t scope t scope
  | part {t scope part inner node innermost} : (part, inner) ∈ t.parts scope →
    Holds part inner node innermost → Holds t scope node innermost

namespace Holds

variable {t u : Tree} {scope inner : Scope}

theorem cases_parts : t.Holds scope u inner ↔
    u = t ∧ inner = scope ∨ ∃ part ∈ t.parts scope, part.1.Holds part.2 u inner := by
  constructor
  · rintro (_ | ⟨hpart, h⟩)
    · exact .inl ⟨rfl, rfl⟩
    · exact .inr ⟨_, hpart, h⟩
  · rintro (⟨rfl, rfl⟩ | ⟨⟨part, inner'⟩, hpart, h⟩)
    · exact .self
    · exact .part hpart h

/-- Parts of nodes are nodes. -/
theorem part_of {part : Tree} {innermost : Scope} (h : t.Holds scope u inner)
    (hpart : (part, innermost) ∈ u.parts inner) : t.Holds scope part innermost := by
  induction h with
  | self => exact .part hpart .self
  | part hnext _ ih => exact .part hnext (ih hpart)

end Holds

/-- The variable that a node names itself. -/
def named? : Tree → Option String
  | .ident _ var => some var
  | .countedLoop _ counter .. => some counter
  | _ => none

theorem eq_ident_of_var? {t : Tree} {var : String} (h : t.var? = some var) :
    t = .ident t.span var := by
  cases t <;> cases h
  rfl

end Tree
end ShapeScript
