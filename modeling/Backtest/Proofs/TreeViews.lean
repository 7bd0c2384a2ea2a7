import Backtest.Proofs.FaultPlace

namespace Backtest.Proofs.TreeViews

open Backtest.Rule
open Backtest.Proofs.Elaboration
open Backtest.Proofs.Outcome
open Backtest.Proofs.TypeSystem
open Backtest.Proofs.FaultPlace

variable {name : String} {tree operand left right : Tree} {operands : List Tree}
  {wanted expected found : ExprType} {error : TypeError} {place : List Stage}

def typeOf : Typed → ExprType
  | .term _ => .numeric
  | .condition _ => .boolean

theorem hasType_of_elaborate {typed : Typed} (hdone : elaborate tree = .ok typed) :
    HasType tree (typeOf typed) := by
  have hreading := readingOf_of_elaborate hdone
  cases typed with
  | term term => exact isNumeric_iff.mpr ⟨term, hreading⟩
  | condition condition => exact isCondition_iff.mpr ⟨condition, hreading⟩

/-- The view of the tree under the wanted type fails with the error. -/
def Refuses (tree : Tree) (error : TypeError) : ExprType → Prop
  | .numeric => asTerm tree = .error error
  | .boolean => asCondition tree = .error error

theorem Refuses.cases (hrefuses : Refuses tree error wanted) :
    elaborate tree = .error error ∨
      ∃ found, HasType tree found ∧ found ≠ wanted ∧ error = .typeMismatch wanted found := by
  cases wanted with
  | numeric =>
      rw [Refuses, (projected tree).asTerm_eq] at hrefuses
      obtain hfailed | ⟨typed, hdone, hfailed⟩ := bind_eq_error.mp hrefuses
      · exact .inl hfailed
      · cases typed with
        | term => exact nomatch hfailed
        | condition =>
            have htyped := hasType_of_elaborate hdone
            exact .inr ⟨_, htyped, nofun, (Except.error.inj hfailed).symm⟩
  | boolean =>
      rw [Refuses, (projected tree).asCondition_eq] at hrefuses
      obtain hfailed | ⟨typed, hdone, hfailed⟩ := bind_eq_error.mp hrefuses
      · exact .inl hfailed
      · cases typed with
        | term =>
            have htyped := hasType_of_elaborate hdone
            exact .inr ⟨_, htyped, nofun, (Except.error.inj hfailed).symm⟩
        | condition => exact nomatch hfailed

/-- The error is that of the first fault, at one place for both types. -/
def AlwaysFirst (tree : Tree) (error : TypeError) : Prop :=
  ∃ place, place ≠ [.closing] ∧ ∀ wanted, FirstFault wanted tree place error

theorem exists_firstFault_of_refuses
    (hlocated : ∀ {error}, elaborate tree = .error error → AlwaysFirst tree error)
    (hrefuses : Refuses tree error wanted) : ∃ place, FirstFault wanted tree place error := by
  obtain hfailed | ⟨found, htyped, hother, rfl⟩ := hrefuses.cases
  · obtain ⟨place, -, hfirst⟩ := hlocated hfailed
    exact ⟨place, hfirst wanted⟩
  · exact ⟨[.closing], firstFault_mismatch htyped hother⟩

theorem alwaysFirst_opening (hfault : ∀ wanted, LocalFault wanted tree .opening error) :
    AlwaysFirst tree error := by
  refine ⟨[.opening], nofun, fun wanted => firstFault_here (hfault wanted) ?_ ?_⟩
  · intro stage' _ _
    cases stage' <;> exact id
  · intro _ _ _ _ _ _ hlater
    exact absurd trivial hlater

theorem alwaysFirst_inside (hfit : Fit tree expected operands) (index : Nat)
    (hoperand : operands[index]? = some operand)
    (hclear : ∀ {index' operand'}, index' < index → operands[index']? = some operand' →
      HasType operand' expected)
    (hfirst : ∃ place, FirstFault expected operand place error) : AlwaysFirst tree error := by
  obtain ⟨place, hfirst⟩ := hfirst
  exact ⟨.operand index :: place, nofun, hfit.firstFault_inside hoperand hclear hfirst⟩

theorem alwaysFirst_head (hfit : Fit tree expected (operand :: operands))
    (hfirst : ∃ place, FirstFault expected operand place error) : AlwaysFirst tree error :=
  alwaysFirst_inside hfit 0 rfl nofun hfirst

theorem alwaysFirst_pair (hfit : Fit tree expected [left, right])
    (hlocated : ∀ {error}, elaborate left = .error error → AlwaysFirst left error)
    (hlocated' : ∀ {error}, elaborate right = .error error → AlwaysFirst right error)
    (hfailed : Refuses left error expected ∨
      HasType left expected ∧ Refuses right error expected) : AlwaysFirst tree error := by
  obtain hrefuses | ⟨htyped, hrefuses⟩ := hfailed
  · exact alwaysFirst_head hfit (exists_firstFault_of_refuses hlocated hrefuses)
  · have hfirst := exists_firstFault_of_refuses hlocated' hrefuses
    apply alwaysFirst_inside hfit 1 rfl _ hfirst
    rintro _ _ hindex hoperand
    obtain rfl := Nat.lt_one_iff.mp hindex
    obtain rfl := Option.some.inj hoperand
    exact htyped

theorem identifierTerm_eq_error (hfailed : identifierTerm name = .error error) :
    ¬ KnownIdentifier name ∧ error = .unknownIdentifier name := by
  constructor
  · intro hknown
    have hnumeric : IsNumeric (.identifier name) := by
      obtain hknown | ⟨column, hknown, rfl⟩ := hknown
      · exact .column hknown
      · exact .yesterday hknown
    obtain ⟨term, hreading⟩ := isNumeric_iff.mp hnumeric
    exact nomatch (identifierTerm_eq_ok.mpr hreading).symm.trans hfailed
  · unfold identifierTerm at hfailed
    split at hfailed
    · cases hfailed
    · split at hfailed
      · cases hfailed
      · exact (Except.error.inj hfailed).symm

theorem literalPeriod_eq_error {function : Function}
    (hfailed : literalPeriod function tree = .error error) :
    (∀ value, tree ≠ .number value) ∧ error = .periodNotLiteral function := by
  cases tree with
  | number value => cases hfailed
  | _ => exact ⟨nofun, (Except.error.inj hfailed).symm⟩

theorem asTerm_bind {β : Type} (next : Term Float → Except TypeError β) :
    (do let term ← (← elaborate tree).asTerm; next term) = asTerm tree >>= next := by
  rw [(projected tree).asTerm_eq, bind_assoc]

theorem asCondition_bind {β : Type} (next : Condition Float → Except TypeError β) :
    (do let condition ← (← elaborate tree).asCondition; next condition) =
      asCondition tree >>= next := by
  rw [(projected tree).asCondition_eq, bind_assoc]

theorem hasType_of_asTerm {term : Term Float} (hdone : asTerm tree = .ok term) :
    HasType tree .numeric := by
  rw [(projected tree).asTerm_eq] at hdone
  obtain ⟨typed, hdone, hfound⟩ := bind_eq_ok.mp hdone
  obtain rfl := asTerm_eq_ok.mp hfound
  exact hasType_of_elaborate hdone

theorem hasType_of_asCondition {condition : Condition Float}
    (hdone : asCondition tree = .ok condition) : HasType tree .boolean :=
  isCondition_iff.mpr ⟨condition, conditionOf_iff.mp hdone⟩

theorem error_of_views {β : Type} {view : Tree → Except TypeError β} {next : β → β → Typed}
    (hfailed : (do return next (← view left) (← view right)) = .error error) :
    view left = .error error ∨ (∃ value, view left = .ok value) ∧ view right = .error error := by
  obtain hfailed | ⟨value, hdone, hfailed⟩ := bind_eq_error.mp hfailed
  · exact .inl hfailed
  · obtain hfailed | ⟨_, _, ⟨⟩⟩ := bind_eq_error.mp hfailed
    exact .inr ⟨⟨value, hdone⟩, hfailed⟩

theorem refuses_of_terms {next : Term Float → Term Float → Typed}
    (hfailed : (do
      let term ← (← elaborate left).asTerm
      let term' ← (← elaborate right).asTerm
      return next term term') = .error error) :
    Refuses left error .numeric ∨ HasType left .numeric ∧ Refuses right error .numeric := by
  simp only [asTerm_bind] at hfailed
  obtain hrefuses | ⟨⟨term, hdone⟩, hrefuses⟩ := error_of_views hfailed
  · exact .inl hrefuses
  · exact .inr ⟨hasType_of_asTerm hdone, hrefuses⟩

theorem refuses_of_conditions {next : Condition Float → Condition Float → Typed}
    (hfailed : (do
      let condition ← (← elaborate left).asCondition
      let condition' ← (← elaborate right).asCondition
      return next condition condition') = .error error) :
    Refuses left error .boolean ∨ HasType left .boolean ∧ Refuses right error .boolean := by
  simp only [asCondition_bind] at hfailed
  obtain hrefuses | ⟨⟨condition, hdone⟩, hrefuses⟩ := error_of_views hfailed
  · exact .inl hrefuses
  · exact .inr ⟨hasType_of_asCondition hdone, hrefuses⟩

theorem alwaysFirst_period {indicator : Indicator} (hnamed : SameLetters name indicator.name)
    {source period : Tree} (htyped : HasType source .numeric)
    (hcomputed : ∀ value, period ≠ .number value) :
    AlwaysFirst (.call name [source, period]) (.periodNotLiteral (.indicator indicator)) := by
  refine ⟨[.operand 1], nofun, fun wanted => ?_⟩
  apply firstFault_here (.period hnamed source hcomputed)
  · intro stage _ hfault
    obtain rfl | ⟨-, rfl, -⟩ := stage_of_known_call ⟨.indicator indicator, hnamed⟩ hfault
    · exact id
    · exact Nat.lt_irrefl 1
  · intro _ _ _ index hasks hoperand _
    obtain ⟨rfl, rfl⟩ := (fit_indicator hnamed source period).sole hasks
    obtain rfl := List.mem_singleton.mp (List.mem_of_getElem? hoperand)
    exact htyped

/-- Elaboration reports the first of the faults. -/
theorem alwaysFirst_of_elaborate (hfailed : elaborate tree = .error error) :
    AlwaysFirst tree error := by
  fun_induction elaborate tree generalizing error with
  | case1 name =>
      obtain ⟨hunknown, rfl⟩ := identifierTerm_eq_error (map_eq_error.mp hfailed)
      exact alwaysFirst_opening fun wanted => .identifier hunknown
  | case2 value => cases hfailed
  | case3 name args hunknown =>
      obtain rfl := Except.error.inj hfailed
      apply alwaysFirst_opening
      refine fun wanted => .function ?_ args
      rintro ⟨function, hnamed⟩
      rw [ofName?_eq_some.mpr hnamed] at hunknown
      cases hunknown
  | case4 name indicator source period hnamed ih =>
      have hnamed := ofName?_eq_some.mp hnamed
      simp only [asTerm_bind] at hfailed
      obtain hrefuses | ⟨term, hdone, hfailed⟩ := bind_eq_error.mp hfailed
      · have hfirst : ∃ place, FirstFault .numeric source place error :=
          exists_firstFault_of_refuses ih hrefuses
        exact alwaysFirst_head (fit_indicator hnamed source period) hfirst
      · obtain hfailed | ⟨_, _, ⟨⟩⟩ := bind_eq_error.mp hfailed
        obtain ⟨hcomputed, rfl⟩ := literalPeriod_eq_error hfailed
        exact alwaysFirst_period hnamed (hasType_of_asTerm hdone) hcomputed
  | case5 name direction left right hnamed ih ih' =>
      have hfit := fit_cross (ofName?_eq_some.mp hnamed) left right
      exact alwaysFirst_pair hfit ih ih' (refuses_of_terms hfailed)
  | case6 name function args hnoIndicator hnoCross hnamed =>
      obtain rfl := Except.error.inj hfailed
      apply alwaysFirst_opening
      refine fun wanted => .arity (ofName?_eq_some.mp hnamed) ?_
      intro hcount
      obtain ⟨first, second, rfl⟩ := List.length_eq_two.mp hcount
      cases function with
      | indicator indicator => exact hnoIndicator _ _ _ rfl rfl
      | cross direction => exact hnoCross _ _ _ rfl rfl
  | case7 op left right ih ih' =>
      exact alwaysFirst_pair (fit_compare op left right) ih ih' (refuses_of_terms hfailed)
  | case8 op left right ih ih' =>
      exact alwaysFirst_pair (fit_logical op left right) ih ih' (refuses_of_conditions hfailed)

theorem exists_firstFault (hrefuses : Refuses tree error wanted) :
    ∃ place, FirstFault wanted tree place error :=
  exists_firstFault_of_refuses alwaysFirst_of_elaborate hrefuses

theorem hasType_of_mismatch
    (hfirst : FirstFault expected operand [.closing] (.typeMismatch expected found)) :
    HasType operand found := by
  cases houtcome : elaborate operand with
  | error error =>
      obtain ⟨place, hinner, hfirst'⟩ := alwaysFirst_of_elaborate houtcome
      exact absurd ((hfirst.unique (hfirst' expected)).1) hinner
  | ok typed =>
      have htype := hasType_of_elaborate houtcome
      obtain ⟨-, -, herror⟩ := onlyMismatch_of_hasType htype _ _ _ hfirst.fault
      obtain rfl := (TypeError.typeMismatch.inj herror).2
      exact htype

def OnlyTerm (tree : Tree) : Prop :=
  (∃ term, asTerm tree = .ok term) ∧ asCondition tree = .error (.typeMismatch .boolean .numeric)

def OnlyCondition (tree : Tree) : Prop :=
  (∃ condition, asCondition tree = .ok condition) ∧
    asTerm tree = .error (.typeMismatch .numeric .boolean)

def Neither (tree : Tree) (error : TypeError) : Prop := ∀ wanted, Refuses tree error wanted

theorem OnlyTerm.not_onlyCondition (hterm : OnlyTerm tree) : ¬ OnlyCondition tree := by
  rintro ⟨-, hfailed⟩
  obtain ⟨⟨_, hdone⟩, -⟩ := hterm
  exact nomatch hdone.symm.trans hfailed

theorem OnlyTerm.not_neither (hterm : OnlyTerm tree) : ¬ ∃ error, Neither tree error := by
  rintro ⟨error, hrefuses⟩
  obtain ⟨⟨_, hdone⟩, -⟩ := hterm
  exact nomatch hdone.symm.trans (hrefuses .numeric)

theorem OnlyCondition.not_neither (hcondition : OnlyCondition tree) :
    ¬ ∃ error, Neither tree error := by
  rintro ⟨error, hrefuses⟩
  obtain ⟨⟨_, hdone⟩, -⟩ := hcondition
  exact nomatch hdone.symm.trans (hrefuses .boolean)

theorem onlyTerm_or_onlyCondition_or_neither (tree : Tree) :
    OnlyTerm tree ∨ OnlyCondition tree ∨ ∃ error, Neither tree error := by
  obtain ⟨hterm, hcondition⟩ := projected tree
  cases houtcome : elaborate tree with
  | error error =>
      rw [houtcome] at hterm hcondition
      refine .inr (.inr ⟨error, fun wanted => ?_⟩)
      cases wanted with
      | numeric => exact hterm
      | boolean => exact hcondition
  | ok typed =>
      rw [houtcome] at hterm hcondition
      cases typed with
      | term => exact .inl ⟨⟨_, hterm⟩, hcondition⟩
      | condition => exact .inr (.inl ⟨⟨_, hcondition⟩, hterm⟩)

theorem elaborate_of_neither (hneither : Neither tree error) : elaborate tree = .error error := by
  obtain hfailed | ⟨_, -, -, herror⟩ := (hneither .numeric).cases
  · exact hfailed
  · obtain hfailed | ⟨_, -, -, herror'⟩ := (hneither .boolean).cases
    · exact hfailed
    · exact nomatch herror.symm.trans herror'

/-- A tree is a term, or it is a condition, and fails by its type as the other, or it fails as both
with the error of its first fault. A mismatch is reported of an operand that has a type. -/
theorem views_agree (tree : Tree) :
    ((OnlyTerm tree ∧ ¬ OnlyCondition tree ∧ ¬ ∃ error, Neither tree error) ∨
      (¬ OnlyTerm tree ∧ OnlyCondition tree ∧ ¬ ∃ error, Neither tree error) ∨
      (¬ OnlyTerm tree ∧ ¬ OnlyCondition tree ∧ ∃ error, Neither tree error)) ∧
    (∀ error, Neither tree error → ∃ place, ∀ wanted, FirstFault wanted tree place error) ∧
    ∀ wanted expected found, Refuses tree (.typeMismatch expected found) wanted →
      ∃ path operand, FirstFault wanted tree (path ++ [.closing]) (.typeMismatch expected found) ∧
        Reaches wanted tree path expected operand ∧ HasType operand found := by
  refine ⟨?_, ?_, ?_⟩
  · obtain hterm | hcondition | hneither := onlyTerm_or_onlyCondition_or_neither tree
    · exact .inl ⟨hterm, hterm.not_onlyCondition, hterm.not_neither⟩
    · exact .inr (.inl ⟨fun hterm => hterm.not_onlyCondition hcondition, hcondition,
        hcondition.not_neither⟩)
    · exact .inr (.inr ⟨fun hterm => hterm.not_neither hneither,
        fun hcondition => hcondition.not_neither hneither, hneither⟩)
  · intro error hneither
    obtain ⟨place, -, hfirst⟩ := alwaysFirst_of_elaborate (elaborate_of_neither hneither)
    exact ⟨place, hfirst⟩
  · intro wanted expected found hrefuses
    obtain ⟨place, hfirst⟩ := exists_firstFault hrefuses
    obtain ⟨path, operand, rfl, hreaches, hfirst'⟩ := reaches_of_mismatch hfirst.fault hfirst
    exact ⟨path, operand, hfirst, hreaches, hasType_of_mismatch hfirst'⟩

end Backtest.Proofs.TreeViews
