import Mathlib.Data.List.Pairwise
import ShapeScript.Proofs.Function.Arities
import ShapeScript.Proofs.Compile.Success

/-!
# Registries and the log of their registrations

All that a registry is ever asked follows from the list of the functions that it has taken, in their
order: a number is a place in the list, and a name and arity resolve to the one place where they
stand (`Registry.Lists`, `Registry.Lists.resolve?_eq_some_iff`). A function is taken unless one of its
name and arity has been taken before (`Registry.record`), and what has been taken stays where it is
(`Registry.registrations_kept`). What is taken has the name, the parameters and the behaviour that
were asked for (`Request.describes_toFunction`).
-/

namespace ShapeScript

open Compilation Compile

/-- A request to register a function: one with any body, or one that computes from values only. -/
inductive Request where
  | function (f : HostFunction)
  | unary (name : String) (f : Float → Float)
  | binary (name : String) (f : Float → Float → Float)
  | ternary (name : String) (f : Float → Float → Float → Float)

def Request.toFunction : Request → HostFunction
  | function f => f
  | unary name f => .unary name f
  | binary name f => .binary name f
  | ternary name f => .ternary name f

/-- What is to be registered: any function as it is, or else one of the name that takes values, answers
what is computed from them, and leaves them as they are. -/
def Request.Describes : Request → HostFunction → Prop
  | function f, g => g = f
  | unary name f, g =>
    g.name = name ∧ g.params = [.value] ∧ ∀ x, g.run [x] = ⟨.value (f x), [x]⟩
  | binary name f, g =>
    g.name = name ∧ g.params = [.value, .value] ∧ ∀ x y, g.run [x, y] = ⟨.value (f x y), [x, y]⟩
  | ternary name f, g =>
    g.name = name ∧ g.params = [.value, .value, .value] ∧
      ∀ x y z, g.run [x, y, z] = ⟨.value (f x y z), [x, y, z]⟩

theorem Request.describes_toFunction (request : Request) : request.Describes request.toFunction := by
  cases request with
  | function f => rfl
  | unary name f => exact ⟨rfl, rfl, fun x => rfl⟩
  | binary name f => exact ⟨rfl, rfl, fun x y => rfl⟩
  | ternary name f => exact ⟨rfl, rfl, fun x y z => rfl⟩

namespace Registry

variable {r r' : Registry} {log : List HostFunction} {f : HostFunction} {id : FunctionId}

/-! ## Requests -/

/-- One request; a refusal leaves the registry as it is. -/
def submit (r : Registry) (request : Request) : Except FunctionExists FunctionId × Registry :=
  match r.register request.toFunction with
  | .error e => (.error e, r)
  | .ok (id, r') => (.ok id, r')

/-- Requests in their order, and what they are answered. -/
def submitAll (r : Registry) : List Request → List (Except FunctionExists FunctionId) × Registry
  | [] => ([], r)
  | request :: rest =>
    let (answer, r) := r.submit request
    let (answers, r) := r.submitAll rest
    (answer :: answers, r)

/-- A function of the same name and arity is in the log. -/
def Taken (log : List HostFunction) (f : HostFunction) : Prop :=
  ∃ g ∈ log, g.name = f.name ∧ g.arity = f.arity

instance (log : List HostFunction) (f : HostFunction) : Decidable (Taken log f) :=
  inferInstanceAs (Decidable (∃ g ∈ log, g.name = f.name ∧ g.arity = f.arity))

/-- The answer to a request and the log after it, by the log alone. -/
def record (log : List HostFunction) (request : Request) :
    Except FunctionExists FunctionId × List HostFunction :=
  let f := request.toFunction
  if Taken log f then (.error ⟨f.name, f.arity⟩, log) else (.ok ⟨log.length⟩, log ++ [f])

def recordAll (log : List HostFunction) :
    List Request → List (Except FunctionExists FunctionId) × List HostFunction
  | [] => ([], log)
  | request :: rest =>
    let (answer, log) := record log request
    let (answers, log) := recordAll log rest
    (answer :: answers, log)

/-! ## A registry and its log -/

/-- The registry has the functions of the log, each by its place and by its name. -/
structure Lists (r : Registry) (log : List HostFunction) : Prop where
  functions : r.functions.toList = log
  overloads : ∀ name id, id ∈ r.overloads name ↔ ∃ f, log[id.index]? = some f ∧ f.name = name

theorem lists_empty (identity : Nat) : (empty identity).Lists [] where
  functions := rfl
  overloads := by simp [empty, Registry.overloads]

theorem mem_overloads_of_resolve? {name : String} {n : Nat} (h : r.resolve? name n = some id) :
    id ∈ r.overloads name ∧ r.arity? id = some n := by
  have found := List.find?_some h
  exact ⟨List.mem_of_find?_eq_some h, beq_iff_eq.mp found⟩

namespace Lists

theorem size_eq (h : r.Lists log) : r.size = log.length := by
  rw [← h.functions, Array.length_toList, size]

theorem function?_eq (h : r.Lists log) (id : FunctionId) : r.function? id = log[id.index]? := by
  rw [← h.functions, Array.getElem?_toList, function?]

theorem numbered (h : r.Lists log) : r.Numbered := by
  intro name id mem
  obtain ⟨f, held, -⟩ := (h.overloads name id).mp mem
  rw [h.size_eq]
  exact (List.getElem?_eq_some_iff.mp held).1

theorem insert (h : r.Lists log) (f : HostFunction) : (r.insert f).2.Lists (log ++ [f]) where
  functions := by rw [← h.functions, Registry.insert, Array.toList_push]
  overloads := by
    intro name id
    obtain ⟨i⟩ := id
    have new : (r.insert f).1 = ⟨log.length⟩ := congrArg FunctionId.mk h.size_eq
    have appended : (∃ g, (log ++ [f])[i]? = some g ∧ g.name = name) ↔
        (∃ g, log[i]? = some g ∧ g.name = name) ∨ i = log.length ∧ f.name = name := by
      rcases Nat.lt_trichotomy i log.length with lt | eq | gt
      · rw [List.getElem?_append_left lt]
        simp [Nat.ne_of_lt lt]
      · rw [eq, List.getElem?_concat_length, List.getElem?_eq_none (Nat.le_refl _)]
        simp
      · have beyond : (log ++ [f]).length ≤ i := by rwa [List.length_append]
        rw [List.getElem?_eq_none beyond, List.getElem?_eq_none (Nat.le_of_lt gt)]
        simp [Nat.ne_of_gt gt]
    rw [appended, ← h.overloads, overloads_insert, new]
    split
    next named => simp [named]
    next other => simp [other]

theorem insertAll (h : r.Lists log) (fs : List HostFunction) :
    (fs.foldl (fun r f => (r.insert f).2) r).Lists (log ++ fs) := by
  induction fs generalizing r log with
  | nil => simpa using h
  | cons f rest ih =>
    have inserted := ih (h.insert f)
    rwa [List.append_assoc] at inserted

theorem arity?_eq {f : HostFunction} (h : r.Lists log) (held : log[id.index]? = some f) :
    r.arity? id = some f.arity := by
  rw [arity?, h.function?_eq, held, Option.map_some]

/-- A name and arity resolve to the place in the log where they stand. -/
theorem resolve?_eq_some_iff (h : r.Lists log) (distinct : r.Distinct) {name : String} {n : Nat} :
    r.resolve? name n = some id ↔ ∃ f, log[id.index]? = some f ∧ f.name = name ∧ f.arity = n := by
  constructor
  · intro resolved
    obtain ⟨mem, arity⟩ := mem_overloads_of_resolve? resolved
    obtain ⟨f, held, named⟩ := (h.overloads name id).mp mem
    exact ⟨f, held, named, Option.some.inj ((h.arity?_eq held).symm.trans arity)⟩
  · rintro ⟨f, held, named, rfl⟩
    have mem := (h.overloads name id).mpr ⟨f, held, named⟩
    have arity := h.arity?_eq held
    cases resolved : r.resolve? name f.arity with
    | none =>
      have differs := List.find?_eq_none.mp resolved id mem
      exact absurd (beq_iff_eq.mpr arity) differs
    | some other =>
      obtain ⟨mem', arity'⟩ := mem_overloads_of_resolve? resolved
      -- two functions of the name that take as many arguments would be in each other's way
      have symm : Std.Symm fun id id' => r.arity? id ≠ r.arity? id' := ⟨fun _ _ => Ne.symm⟩
      have apart := (distinct name).forall mem mem'
      by_contra ne
      exact apart (fun same => ne (congrArg some same.symm)) (arity.trans arity'.symm)

theorem isSome_resolve?_iff (h : r.Lists log) (distinct : r.Distinct) :
    (r.resolve? f.name f.arity).isSome = true ↔ Taken log f := by
  rw [Option.isSome_iff_exists]
  constructor
  · rintro ⟨id, resolved⟩
    obtain ⟨g, held, same⟩ := (h.resolve?_eq_some_iff distinct).mp resolved
    exact ⟨g, List.mem_of_getElem? held, same⟩
  · rintro ⟨g, mem, same⟩
    obtain ⟨i, held⟩ := List.mem_iff_getElem?.mp mem
    exact ⟨⟨i⟩, (h.resolve?_eq_some_iff distinct).mpr ⟨g, held, same⟩⟩

end Lists

/-! ## Histories -/

theorem Lists.submit_of_taken (h : r.Lists log) (distinct : r.Distinct) {request : Request}
    (taken : Taken log request.toFunction) :
    r.submit request = (.error ⟨request.toFunction.name, request.toFunction.arity⟩, r) := by
  rw [Registry.submit, register, if_pos ((h.isSome_resolve?_iff distinct).mpr taken)]

theorem Lists.submit_of_free (h : r.Lists log) (distinct : r.Distinct) {request : Request}
    (free : ¬Taken log request.toFunction) :
    r.submit request = (.ok ⟨log.length⟩, (r.insert request.toFunction).2) := by
  have new : (r.insert request.toFunction).1 = ⟨log.length⟩ := congrArg FunctionId.mk h.size_eq
  rw [Registry.submit, register, if_neg (mt (h.isSome_resolve?_iff distinct).mp free), ← new]

/-- One request keeps registry and log together, and both give the same answer. -/
theorem Lists.submit (h : r.Lists log) (distinct : r.Distinct) (request : Request) :
    (r.submit request).1 = (record log request).1 ∧
      (r.submit request).2.Lists (record log request).2 ∧ (r.submit request).2.Distinct := by
  rw [record]
  by_cases taken : Taken log request.toFunction
  · rw [h.submit_of_taken distinct taken, if_pos taken]
    exact ⟨rfl, h, distinct⟩
  · rw [h.submit_of_free distinct taken, if_neg taken]
    have unresolved := mt (h.isSome_resolve?_iff distinct).mp taken
    exact ⟨rfl, h.insert _, distinct.insert h.numbered (Option.not_isSome_iff_eq_none.mp unresolved)⟩

theorem Lists.submitAll (h : r.Lists log) (distinct : r.Distinct) (requests : List Request) :
    (r.submitAll requests).1 = (recordAll log requests).1 ∧
      (r.submitAll requests).2.Lists (recordAll log requests).2 ∧
      (r.submitAll requests).2.Distinct := by
  induction requests generalizing r log with
  | nil => exact ⟨rfl, h, distinct⟩
  | cons request rest ih =>
    obtain ⟨answer, h, distinct⟩ := h.submit distinct request
    obtain ⟨answers, h, distinct⟩ := ih h distinct
    exact ⟨congrArg₂ List.cons answer answers, h, distinct⟩

theorem Extends.submit (numbered : r.Numbered) (request : Request) :
    r.Extends (r.submit request).2 := by
  rw [Registry.submit]
  cases registered : r.register request.toFunction with
  | error e => exact .refl r
  | ok taken => exact .register numbered registered

theorem Lists.extends_submitAll (h : r.Lists log) (distinct : r.Distinct)
    (requests : List Request) : r.Extends (r.submitAll requests).2 := by
  induction requests generalizing r log with
  | nil => exact .refl r
  | cons request rest ih =>
    obtain ⟨-, h', distinct'⟩ := h.submit distinct request
    exact (Extends.submit h.numbered request).trans (ih h' distinct')

/-- The log only grows, and what is taken is numbered in the order in which it is taken. -/
theorem exists_recordAll_eq (log : List HostFunction) (requests : List Request) :
    ∃ more, (recordAll log requests).2 = log ++ more ∧
      (recordAll log requests).1.filterMap Except.toOption =
        (List.range' log.length more.length).map FunctionId.mk := by
  induction requests generalizing log with
  | nil => exact ⟨[], (List.append_nil _).symm, rfl⟩
  | cons request rest ih =>
    rw [recordAll, record]
    by_cases taken : Taken log request.toFunction
    · rw [if_pos taken]
      exact ih log
    · rw [if_neg taken]
      obtain ⟨more, grown, numbers⟩ := ih (log ++ [request.toFunction])
      refine ⟨request.toFunction :: more, ?_, ?_⟩
      · rw [grown, List.append_assoc]
        rfl
      · rw [List.length_append] at numbers
        exact congrArg (⟨log.length⟩ :: ·) numbers

/-- A request that is not refused gets the number of the place where its function stands. -/
theorem getElem?_recordAll {requests : List Request} {k : Nat} {request : Request}
    (asked : requests[k]? = some request) (answered : (recordAll log requests).1[k]? = some (.ok id)) :
    (recordAll log requests).2[id.index]? = some request.toFunction := by
  induction requests generalizing log k with
  | nil => cases asked
  | cons first rest ih =>
    cases k with
    | zero =>
      cases asked
      obtain ⟨more, grown, -⟩ := exists_recordAll_eq (record log request).2 rest
      have answer : (record log request).1 = .ok id := Option.some.inj answered
      change (recordAll (record log request).2 rest).2[id.index]? = _
      rw [grown]
      rw [record] at answer ⊢
      split at answer
      next => cases answer
      next free =>
        cases answer
        rw [if_neg free, List.append_assoc, List.getElem?_append_right (Nat.le_refl _), Nat.sub_self]
        rfl
    | succ k => exact ih asked answered

/-! ## New registries -/

/-- How a registry begins. -/
inductive Start where
  | bare
  | withMath

namespace Start

def registry (identity : Nat) : Start → Registry
  | bare => empty identity
  | withMath => .withMath identity

/-- The catalogue counts as registered before anything else. -/
def functions : Start → List HostFunction
  | bare => []
  | withMath => Catalogue.functions

/-- The requests that the catalogue stands for. -/
def requests : Start → List Request
  | bare => []
  | withMath =>
    Catalogue.unaryFunctions.map (fun (name, f) => .unary name f)
      ++ Catalogue.binaryFunctions.map (fun (name, f) => .binary name f)
      ++ Catalogue.ternaryFunctions.map (fun (name, f) => .ternary name f)

theorem functions_eq (start : Start) : start.functions = start.requests.map Request.toFunction := by
  cases start with
  | bare => rfl
  | withMath =>
    simp only [functions, requests, Catalogue.functions, List.map_append, List.map_map]
    rfl

theorem lists (start : Start) (identity : Nat) : (start.registry identity).Lists start.functions := by
  cases start with
  | bare => exact lists_empty identity
  | withMath => exact (lists_empty identity).insertAll Catalogue.functions

theorem distinct (start : Start) (identity : Nat) : (start.registry identity).Distinct := by
  cases start with
  | bare => exact distinct_empty identity
  | withMath => exact distinct_withMath identity

end Start

/-! ## What holds of every history -/

/-- The one place in the log where a function has the name and arity. -/
def OnlyAt (log : List HostFunction) (name : String) (n : Nat) (id : FunctionId) : Prop :=
  ∀ other : FunctionId,
    (∃ f, log[other.index]? = some f ∧ f.name = name ∧ f.arity = n) ↔ other = id

theorem Lists.resolve?_eq_some_iff_onlyAt (h : r.Lists log) (distinct : r.Distinct) {name : String}
    {n : Nat} : r.resolve? name n = some id ↔ OnlyAt log name n id := by
  constructor
  · intro resolved other
    rw [← h.resolve?_eq_some_iff distinct, resolved, Option.some.injEq, eq_comm]
  · intro only
    exact (h.resolve?_eq_some_iff distinct).mpr ((only id).mpr rfl)

theorem exists_call_of_compile {scope : Scope} {t t' : Tally} {c : Compiled} {span : Span}
    {name : String} {args : List Tree}
    (compiled : (Tree.call span name args).compile r scope t = .ok (c, t')) :
    ∃ id arguments, r.resolve? name args.length = some id ∧
      c.code = Run.call id name arguments span := by
  simp only [Tree.compile, bind_ok, countNode_ok, callee_ok, pure_ok, Prod.exists] at compiled
  obtain ⟨_, _, -, id, _, _, ⟨resolved, -⟩, arguments, _, -, rfl, -⟩ := compiled
  exact ⟨id, arguments, resolved, rfl⟩

/-- The registry answers by its log, and at a later time it still does. -/
structure Remembers (r : Registry) (log : List HostFunction) (later : Registry) : Prop where
  /-- A name and arity that are taken are refused, and nothing changes. -/
  refuses : ∀ {request : Request}, Taken log request.toFunction →
    r.submit request = (.error ⟨request.toFunction.name, request.toFunction.arity⟩, r)
  /-- Every other function gets the next number. -/
  accepts : ∀ {request : Request}, ¬Taken log request.toFunction →
    r.submit request = (.ok ⟨log.length⟩, (r.insert request.toFunction).2)
  /-- A number stands for the function that got it: name, parameters and behaviour. -/
  function? : ∀ id, r.function? id = log[id.index]?
  resolve? : ∀ {name n id}, r.resolve? name n = some id ↔ OnlyAt log name n id
  arities_ascend : ∀ name, (r.arities name).Pairwise (· < ·)
  mem_arities : ∀ {name n}, n ∈ r.arities name ↔ (r.resolve? name n).isSome = true
  /-- What a number has stood for, it stands for at any later time. -/
  kept : ∀ {id f}, r.function? id = some f → later.function? id = some f
  /-- The code of a call has the number that its name resolved to, so it reaches the same function
  in the later registry. -/
  calls : ∀ {scope span name args t t' c},
    (Tree.call span name args).compile r scope t = .ok (c, t') →
    ∃ id f arguments, r.resolve? name args.length = some id ∧ log[id.index]? = some f ∧
      c.code = Run.call id name arguments span ∧ later.resolve? name args.length = some id ∧
      later.function? id = some f

/-- The numbers in the registry stand for functions as they were asked for: those of the catalogue in
its order, and behind them those of the requests that were not refused. -/
structure Honours (r : Registry) (start : Start) (requests : List Request)
    (answers : List (Except FunctionExists FunctionId)) : Prop where
  catalogue : ∀ {k : Nat} {request}, start.requests[k]? = some request →
    ∃ f, r.function? ⟨k⟩ = some f ∧ request.Describes f
  requested : ∀ {k : Nat} {request id}, requests[k]? = some request → answers[k]? = some (.ok id) →
    ∃ f, r.function? id = some f ∧ request.Describes f

theorem Lists.honours {start : Start} {requests : List Request} (later : r.Extends r')
    (h : r.Lists (recordAll start.functions requests).2) :
    r'.Honours start requests (recordAll start.functions requests).1 where
  catalogue := by
    intro k request listed
    obtain ⟨more, grown, -⟩ := exists_recordAll_eq start.functions requests
    have held : start.functions[k]? = some request.toFunction := by
      rw [start.functions_eq, List.getElem?_map, listed, Option.map_some]
    have lt : k < start.functions.length := (List.getElem?_eq_some_iff.mp held).1
    refine ⟨request.toFunction, later.function? ?_, request.describes_toFunction⟩
    rw [h.function?_eq, grown, List.getElem?_append_left lt, held]
  requested := by
    intro k request id asked answered
    refine ⟨request.toFunction, later.function? ?_, request.describes_toFunction⟩
    rw [h.function?_eq, getElem?_recordAll asked answered]

/-- Whatever is requested of a new registry, the answers are those that the log of its functions
gives, and from then on the registry remembers. At any later time its numbers stand for the functions
that were asked for. -/
theorem registrations_kept (start : Start) (identity : Nat) (earlier later : List Request) :
    let served := (start.registry identity).submitAll earlier
    let recorded := recordAll start.functions earlier
    served.1 = recorded.1 ∧
    (∃ more, recorded.2 = start.functions ++ more ∧ served.1.filterMap Except.toOption =
      (List.range' start.functions.length more.length).map FunctionId.mk) ∧
    served.2.Remembers recorded.2 (served.2.submitAll later).2 ∧
    (served.2.submitAll later).2.Honours start earlier served.1 := by
  intro served recorded
  obtain ⟨answers, lists, distinct⟩ :=
    (start.lists identity).submitAll (start.distinct identity) earlier
  have grown := lists.extends_submitAll distinct later
  refine ⟨answers, ?_, ?_, answers ▸ lists.honours grown⟩
  · rw [answers]
    exact exists_recordAll_eq _ _
  · exact {
      refuses := lists.submit_of_taken distinct
      accepts := lists.submit_of_free distinct
      function? := lists.function?_eq
      resolve? := lists.resolve?_eq_some_iff_onlyAt distinct
      arities_ascend := distinct.pairwise_lt_arities
      mem_arities := by
        intro name n
        rw [Registry.mem_arities, Option.isSome_iff_exists]
      kept := grown.function?
      calls := by
        intro scope span name args t t' c compiled
        obtain ⟨id, arguments, resolved, code⟩ := exists_call_of_compile compiled
        obtain ⟨f, held, -⟩ := (lists.resolve?_eq_some_iff distinct).mp resolved
        have function := (lists.function?_eq id).trans held
        exact ⟨id, f, arguments, resolved, held, code, grown.resolve? resolved,
          grown.function? function⟩ }

/-- The third request is refused, and the call has the first function also when there are three. -/
theorem registrations_kept_of_overloads :
    let served := (empty 0).submitAll
      [.binary "f" fun x _ => x, .unary "f" fun x => x, .binary "f" fun _ y => y]
    let later := (served.2.submitAll [.ternary "f" fun _ _ z => z]).2
    let call : Tree := .call ⟨0, 6⟩ "f" [.literal ⟨2, 3⟩ "1", .literal ⟨4, 5⟩ "2"]
    served.1 = [.ok ⟨0⟩, .ok ⟨1⟩, .error ⟨"f", 2⟩] ∧
    ∃ c t' id f arguments, call.compile served.2 .outermost .zero = .ok (c, t') ∧
      c.code = Run.call id "f" arguments ⟨0, 6⟩ ∧ later.function? id = some f ∧
      f.params = [.value, .value] ∧ ∀ x y, f.run [x, y] = ⟨.value x, [x, y]⟩ := by
  intro served later call
  obtain ⟨answers, -, remembers, honours⟩ := registrations_kept .bare 0
    [.binary "f" fun x _ => x, .unary "f" fun x => x, .binary "f" fun _ y => y]
    [.ternary "f" fun _ _ z => z]
  have answers : served.1 = [.ok ⟨0⟩, .ok ⟨1⟩, .error ⟨"f", 2⟩] :=
    answers.trans (by decide +kernel)
  refine ⟨answers, ?_⟩
  have succeeds : (call.compile served.2 .outermost .zero).isOk = true := by
    subst served call
    decide +kernel
  cases compiled : call.compile served.2 .outermost .zero with
  | error error =>
    rw [compiled] at succeeds
    cases succeeds
  | ok r =>
    obtain ⟨c, t'⟩ := r
    obtain ⟨id, f, arguments, resolved, held, code, -, function⟩ := remembers.calls compiled
    obtain ⟨g, first, -, params, run⟩ := honours.requested (k := 0) rfl (congrArg (·[0]?) answers)
    have same : served.2.resolve? "f" 2 = some ⟨0⟩ := by decide +kernel
    obtain rfl : (⟨0⟩ : FunctionId) = id := Option.some.inj (same.symm.trans resolved)
    obtain rfl : g = f := Option.some.inj (first.symm.trans function)
    exact ⟨c, t', ⟨0⟩, g, arguments, rfl, code, function, params, run⟩

end Registry
end ShapeScript
