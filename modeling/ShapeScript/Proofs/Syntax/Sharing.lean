import Mathlib.Data.Finset.Card
import ShapeScript.Proofs.Syntax.Interner

/-!
# Sharing an interner

Callers that share an interner do not intern in one go: a first look may find nothing, and by the
time of the second look another caller may have interned the string. Whatever they do in between, a
string has one number and a number one string (`Interner.names_one_to_one`). What carries this
through a history is `Interner.Kept`, which each step keeps (`Interner.Kept.step`).
-/

namespace ShapeScript.Interner

variable {i : Interner} {s : String} {n : Name}

/-! ## Histories -/

/-- An interner and the strings that callers have looked for in vain and are about to intern. -/
structure Shared where
  interner : Interner
  waiting : List String

/-- What a caller does in one go, and the answer. -/
inductive Event where
  /-- Interning has come to an end. -/
  | interned (s : String) (n : Name)
  /-- The first look of interning has found nothing. -/
  | missed (s : String)
  /-- The number of a string, without interning it. -/
  | asked (s : String) (answer : Option Name)
  /-- The text of a name; callers that insist on one panic where there is none. -/
  | read (n : Name) (answer : Option String)

/-- The string and the number that an answer joins. -/
def Event.pair? : Event → Option (String × Name)
  | interned s n => some (s, n)
  | missed _ => none
  | asked s answer => answer.map (s, ·)
  | read n answer => answer.map (·, n)

/-- How many entries an event adds: one if a string that has no number is interned. -/
def Event.added (i : Interner) : Event → Nat
  | interned s _ => if i.find? s = none then 1 else 0
  | missed _ | asked .. | read .. => 0

/-- The strings whose interning has come to an end. -/
def interned (events : List Event) : List String :=
  events.filterMap fun
    | .interned s _ => some s
    | _ => none

theorem mem_interned {events : List Event} : s ∈ interned events ↔ ∃ n, .interned s n ∈ events := by
  rw [interned, List.mem_filterMap]
  constructor
  · rintro ⟨event, mem, h⟩
    cases event <;> cases h
    exact ⟨_, mem⟩
  · rintro ⟨n, mem⟩
    exact ⟨_, mem, rfl⟩

/-- One caller acts; the others may be anywhere between their two looks. -/
inductive Step : Shared → Event → Shared → Prop where
  | found {i waiting s n} : i.find? s = some n → Step ⟨i, waiting⟩ (.interned s n) ⟨i, waiting⟩
  | missed {i waiting s} : i.find? s = none → Step ⟨i, waiting⟩ (.missed s) ⟨i, s :: waiting⟩
  | issued {i before s after} : Step ⟨i, before ++ s :: after⟩ (.interned s (i.issue s).1)
      ⟨(i.issue s).2, before ++ after⟩
  | asked {i waiting s} : Step ⟨i, waiting⟩ (.asked s (i.find? s)) ⟨i, waiting⟩
  | read {i waiting n} : Step ⟨i, waiting⟩ (.read n (i.text? n)) ⟨i, waiting⟩

/-- The events of any number of callers, in the order in which they happen. -/
inductive History (start : Shared) : List Event → Shared → Prop where
  | nil : History start [] start
  | snoc {events σ event σ'} : History start events σ → Step σ event σ' →
      History start (events ++ [event]) σ'

/-- Interning that nobody comes in between. -/
theorem exists_history_intern (i : Interner) (waiting : List String) (s : String) :
    ∃ events, History ⟨i, waiting⟩ events ⟨(i.intern s).2, waiting⟩ ∧
      .interned s (i.intern s).1 ∈ events := by
  cases looked : i.find? s with
  | some n =>
    have same : i.intern s = (n, i) := by rw [intern, looked]
    rw [same]
    exact ⟨[.interned s n], .snoc .nil (.found looked), List.mem_singleton_self _⟩
  | none =>
    rw [intern_eq_issue]
    have second : Step ⟨i, s :: waiting⟩ (.interned s (i.issue s).1) ⟨(i.issue s).2, waiting⟩ :=
      @Step.issued i [] s waiting
    exact ⟨[.missed s, .interned s (i.issue s).1], .snoc (.snoc .nil (.missed looked)) second,
      .tail _ (.head _)⟩

/-! ## One step -/

/-- A second look that finds the string leaves the interner alone. -/
theorem issue_of_find? (h : i.find? s = some n) : i.issue s = (n, i) := by
  rw [issue, h]

theorem size_issue_of_new (h : i.find? s = none) : (i.issue s).2.size = i.size + 1 := by
  rw [issue, h]
  exact Array.size_push ..

theorem issue_name_of_new (h : i.find? s = none) : (i.issue s).1 = ⟨i.size⟩ := by
  rw [issue, h]
  rfl

theorem Step.size_eq {σ σ' : Shared} {event : Event} (step : Step σ event σ') :
    σ'.interner.size = σ.interner.size + event.added σ.interner := by
  cases step with
  | found looked => simp [Event.added, looked]
  | @issued i before s after =>
    cases looked : i.find? s with
    | some n => simp [Event.added, issue_of_find? looked, looked]
    | none => simp [Event.added, size_issue_of_new looked, looked]
  | missed | asked | read => rfl

theorem Step.extends {σ σ' : Shared} {event : Event} (step : Step σ event σ') :
    σ.interner.Extends σ'.interner := by
  cases step with
  | @issued i before s after =>
    have grown := Extends.intern i s
    rwa [intern_eq_issue] at grown
  | found | missed | asked | read => exact .refl _

theorem History.extends {σ σ' : Shared} {events : List Event} (history : History σ events σ') :
    σ.interner.Extends σ'.interner := by
  induction history with
  | nil => exact .refl _
  | snoc _ step ih => exact ih.trans step.extends

/-! ## What a history keeps -/

/-- An interner that is up to the events so far. -/
structure Kept (events : List Event) (i : Interner) : Prop where
  lawful : i.Lawful
  empty : i.text? .empty = some ""
  /-- Every answer that has been given is still right. -/
  said : ∀ {event s n}, event ∈ events → event.pair? = some (s, n) → i.text? n = some s
  /-- Every number but the first has been given out to some caller. -/
  issued : ∀ {n : Name}, n.index < i.size → n = .empty ∨ ∃ s, .interned s n ∈ events

namespace Lawful

theorem eq_iff_eq (lawful : i.Lawful) {s' : String} {n' : Name} (text : i.text? n = some s)
    (text' : i.text? n' = some s') : s = s' ↔ n = n' := by
  constructor
  · rintro rfl
    exact Option.some.inj (((lawful s n).mpr text).symm.trans ((lawful s n').mpr text'))
  · rintro rfl
    exact Option.some.inj (text.symm.trans text')

theorem nodup (lawful : i.Lawful) : i.texts.toList.Nodup := by
  rw [List.nodup_iff_getElem?_ne_getElem?]
  intro a b lt bound same
  rw [Array.length_toList] at bound
  rw [Array.getElem?_toList, Array.getElem?_toList] at same
  have text' : i.text? ⟨b⟩ = some i.texts[b] := Array.getElem?_eq_getElem bound
  have text : i.text? ⟨a⟩ = some i.texts[b] := same.trans text'
  cases (lawful.eq_iff_eq text text').mp rfl
  exact absurd lt (Nat.lt_irrefl a)

end Lawful

theorem index_lt_size (h : i.text? n = some s) : n.index < i.size :=
  (Array.getElem?_eq_some_iff.mp h).1

namespace Kept

variable {events : List Event} {σ σ' : Shared} {event : Event}

theorem fresh : Kept [] fresh where
  lawful := lawful_fresh
  empty := rfl
  said mem := absurd mem List.not_mem_nil
  issued := by
    intro n lt
    obtain ⟨k⟩ := n
    obtain rfl : k = 0 := Nat.lt_one_iff.mp lt
    exact .inl rfl

/-- The answer of a step is right after it. -/
theorem said_by_step (kept : Kept events σ.interner) (step : Step σ event σ')
    (said : event.pair? = some (s, n)) : σ'.interner.text? n = some s := by
  cases step with
  | found looked =>
    cases said
    exact (kept.lawful s n).mp looked
  | missed looked => cases said
  | @issued i before s after =>
    cases said
    have text := text?_intern kept.lawful s
    rwa [intern_eq_issue] at text
  | asked =>
    obtain ⟨_, looked, same⟩ := Option.map_eq_some_iff.mp said
    cases same
    exact (kept.lawful s n).mp looked
  | read =>
    obtain ⟨_, text, same⟩ := Option.map_eq_some_iff.mp said
    cases same
    exact text

theorem lawful_step (kept : Kept events σ.interner) (step : Step σ event σ') :
    σ'.interner.Lawful := by
  cases step with
  | @issued i before s after =>
    have lawful := kept.lawful.intern s
    rwa [intern_eq_issue] at lawful
  | found | missed | asked | read => exact kept.lawful

/-- A number that is new after a step has been given out by it. -/
theorem issued_by_step (step : Step σ event σ') (lt : n.index < σ'.interner.size) :
    n.index < σ.interner.size ∨ ∃ s, event = .interned s n := by
  cases step with
  | @issued i before s after =>
    cases looked : i.find? s with
    | some m =>
      rw [issue_of_find? looked] at lt
      exact .inl lt
    | none =>
      rw [size_issue_of_new looked] at lt
      rcases Nat.lt_succ_iff_lt_or_eq.mp lt with old | new
      · exact .inl old
      · have next : n = ⟨i.size⟩ := congrArg Name.mk new
        exact .inr ⟨s, by rw [issue_name_of_new looked, next]⟩
  | found | missed | asked | read => exact .inl lt

theorem step (kept : Kept events σ.interner) (step : Step σ event σ') :
    Kept (events ++ [event]) σ'.interner where
  lawful := kept.lawful_step step
  empty := step.extends.text? kept.empty
  said mem said := by
    rcases List.mem_append.mp mem with mem | mem
    · exact step.extends.text? (kept.said mem said)
    · cases List.mem_singleton.mp mem
      exact kept.said_by_step step said
  issued lt := by
    rcases issued_by_step step lt with old | ⟨s, rfl⟩
    · exact (kept.issued old).imp_right fun ⟨s, mem⟩ => ⟨s, List.mem_append_left _ mem⟩
    · exact .inr ⟨s, List.mem_append_right _ (List.mem_singleton_self _)⟩

theorem history (h : History ⟨Interner.fresh, []⟩ events σ) : Kept events σ.interner := by
  induction h with
  | nil => exact fresh
  | snoc _ step ih => exact ih.step step

/-- Numbers in use are those that callers have got, and the first one. -/
theorem index_lt_size_iff (kept : Kept events i) :
    n.index < i.size ↔ n = .empty ∨ ∃ s, .interned s n ∈ events := by
  constructor
  · exact kept.issued
  · rintro (rfl | ⟨s, mem⟩)
    · exact index_lt_size kept.empty
    · exact index_lt_size (kept.said mem rfl)

theorem mem_texts_iff (kept : Kept events i) : s ∈ i.texts ↔ s ∈ "" :: interned events := by
  rw [List.mem_cons, mem_interned, Array.mem_iff_getElem?]
  constructor
  · rintro ⟨k, text⟩
    have text : i.text? ⟨k⟩ = some s := text
    rcases kept.issued (index_lt_size text) with first | ⟨s', mem⟩
    · rw [first, kept.empty] at text
      exact .inl (Option.some.inj text).symm
    · have same := kept.said mem rfl
      obtain rfl : s = s' := Option.some.inj (text.symm.trans same)
      exact .inr ⟨_, mem⟩
  · rintro (rfl | ⟨n, mem⟩)
    · exact ⟨_, kept.empty⟩
    · exact ⟨_, kept.said mem rfl⟩

theorem size_eq_card (kept : Kept events i) : i.size = ("" :: interned events).toFinset.card := by
  have same : i.texts.toList.toFinset = ("" :: interned events).toFinset := by
    ext s
    rw [List.mem_toFinset, List.mem_toFinset, Array.mem_toList_iff, kept.mem_texts_iff]
  rw [← same, List.toFinset_card_of_nodup kept.lawful.nodup]
  rfl

end Kept

/-! ## What callers can rely on -/

/-- An interner that is up to the events so far, and the same interner at a later time. -/
structure Reliable (events : List Event) (σ later : Shared) : Prop where
  text?_iff : ∀ s n, σ.interner.text? n = some s ↔ σ.interner.find? s = some n
  empty : σ.interner.text? .empty = some ""
  /-- The numbers below the size are those that callers have got, and the first one. -/
  index_lt_size_iff : ∀ n : Name,
    n.index < σ.interner.size ↔ n = .empty ∨ ∃ s, .interned s n ∈ events
  /-- Whoever asks and whenever, equal strings have equal numbers and others have others. -/
  same_iff : ∀ {event event' s n s' n'}, event ∈ events → event' ∈ events →
    event.pair? = some (s, n) → event'.pair? = some (s', n') → (s = s' ↔ n = n')
  /-- A text never changes. -/
  text?_kept : ∀ {s n}, σ.interner.text? n = some s → later.interner.text? n = some s
  /-- What a caller has been told stays right. -/
  said_kept : ∀ {event s n}, event ∈ events → event.pair? = some (s, n) →
    later.interner.text? n = some s ∧ later.interner.find? s = some n
  /-- There are as many entries as strings have been interned, the empty one included. -/
  size_eq : σ.interner.size = ("" :: interned events).toFinset.card
  /-- Whatever happens next, only interning a string that has no number adds an entry. -/
  size_next : ∀ {event σ'}, Step σ event σ' →
    σ'.interner.size = σ.interner.size + event.added σ.interner
  /-- Interning that nobody comes in between may happen next. -/
  undisturbed : ∀ s, ∃ events, History σ events ⟨(σ.interner.intern s).2, σ.waiting⟩ ∧
    .interned s (σ.interner.intern s).1 ∈ events

/-- Any number of callers share an interner, and whatever one of them does may come between the two
looks of another that is interning. All of them can rely on it. -/
theorem names_one_to_one {earlier later : List Event} {σ σ' : Shared}
    (history : History ⟨fresh, []⟩ earlier σ) (rest : History σ later σ') :
    Reliable earlier σ σ' where
  text?_iff s n := ((Kept.history history).lawful s n).symm
  empty := (Kept.history history).empty
  index_lt_size_iff n := (Kept.history history).index_lt_size_iff
  same_iff mem mem' said said' := by
    have kept := Kept.history history
    exact kept.lawful.eq_iff_eq (kept.said mem said) (kept.said mem' said')
  text?_kept := rest.extends.text?
  said_kept mem said := by
    have kept := Kept.history history
    have text := kept.said mem said
    exact ⟨rest.extends.text? text, rest.extends.find? ((kept.lawful _ _).mpr text)⟩
  size_eq := (Kept.history history).size_eq_card
  size_next := Step.size_eq
  undisturbed := exists_history_intern σ.interner σ.waiting

/-- Two callers look for `x` in vain before either of them interns it. -/
theorem names_one_to_one_of_race :
    let σ : Shared := ⟨(fresh.intern "x").2, []⟩
    let σ' : Shared := ⟨(σ.interner.intern "y").2, []⟩
    let earlier := [Event.missed "x", .missed "x", .interned "x" ⟨1⟩, .interned "x" ⟨1⟩]
    let later := [Event.missed "y", .interned "y" ⟨2⟩]
    History ⟨fresh, []⟩ earlier σ ∧ History σ later σ' ∧
      σ.interner.size = ("" :: interned earlier).toFinset.card ∧ σ.interner.size = 2 ∧
      σ'.interner.text? ⟨1⟩ = some "x" ∧ σ'.interner.find? "x" = some ⟨1⟩ := by
  intro σ σ' earlier later
  have missed : fresh.find? "x" = none := by decide +kernel
  have known : σ.interner.find? "x" = some ⟨1⟩ := by decide +kernel
  have missed' : σ.interner.find? "y" = none := by decide +kernel
  have first : Step ⟨fresh, ["x", "x"]⟩ (.interned "x" ⟨1⟩) ⟨σ.interner, ["x"]⟩ := by
    have issued := @Step.issued fresh [] "x" ["x"]
    rwa [← intern_eq_issue, show (fresh.intern "x").1 = ⟨1⟩ by decide +kernel] at issued
  have second : Step ⟨σ.interner, ["x"]⟩ (.interned "x" ⟨1⟩) σ := by
    have issued := @Step.issued σ.interner [] "x" []
    rwa [issue_of_find? known] at issued
  have third : Step ⟨σ.interner, ["y"]⟩ (.interned "y" ⟨2⟩) σ' := by
    have issued := @Step.issued σ.interner [] "y" []
    rwa [← intern_eq_issue, show (σ.interner.intern "y").1 = ⟨2⟩ by decide +kernel] at issued
  have race : History ⟨fresh, []⟩ earlier σ :=
    .snoc (.snoc (.snoc (.snoc .nil (.missed missed)) (.missed missed)) first) second
  have rest : History σ later σ' := .snoc (.snoc .nil (.missed missed')) third
  have reliable := names_one_to_one race rest
  have mem : Event.interned "x" ⟨1⟩ ∈ earlier := .tail _ (.tail _ (.head _))
  exact ⟨race, rest, reliable.size_eq, by decide +kernel, reliable.said_kept mem rfl⟩

end ShapeScript.Interner
