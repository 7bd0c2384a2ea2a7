import Backtest.Proofs.TypeSystem

/-!
The faults of a tree, judged of the tree alone and each at a place. Places are ordered from left to
right and from the inside out. A well-typed tree has no fault but that of a type that is not its
own, and the first fault of a node is its opening one or lies where the operands before are fine.
-/

namespace Backtest.Proofs.FaultPlace

open Backtest.Rule
open Backtest.Proofs.TypeSystem

/-- The stages in which a node is looked at: its name and the count of its arguments, its operands
from left to right, and at last its own type. -/
inductive Stage
  | opening
  | operand (index : Nat)
  | closing

def Stage.Precedes : Stage → Stage → Prop
  | .opening, .operand _ => True
  | .opening, .closing => True
  | .operand index, .operand index' => index < index'
  | .operand _, .closing => True
  | _, _ => False

/-- The order of places, each given by the stages that lead to it from the root. -/
def Before : List Stage → List Stage → Prop := List.Lex Stage.Precedes

def KnownIdentifier (name : String) : Prop :=
  name ∈ columnNames ∨ ∃ column ∈ columnNames, name = "yesterday_" ++ column

def KnownFunction (name : String) : Prop := ∃ function : Function, SameLetters name function.name

/-- The type that the outermost symbol of a tree gives it. -/
inductive HeadType : Tree → ExprType → Prop
  | identifier (name : String) : HeadType (.identifier name) .numeric
  | number (value : Float) : HeadType (.number value) .numeric
  | indicator {name : String} {indicator : Indicator} (hnamed : SameLetters name indicator.name)
      (args : List Tree) : HeadType (.call name args) .numeric
  | cross {name : String} {direction : Direction} (hnamed : SameLetters name direction.name)
      (args : List Tree) : HeadType (.call name args) .boolean
  | compare (op : CompareOp) (left right : Tree) : HeadType (.compare op left right) .boolean
  | logical (op : BoolOp) (left right : Tree) : HeadType (.logical op left right) .boolean

/-- The type that a node asks of its operands. A call that is wrong by itself asks for any. -/
inductive Asks : Tree → ExprType → List Tree → Prop
  | indicator {name : String} {indicator : Indicator} (hnamed : SameLetters name indicator.name)
      (source period : Tree) : Asks (.call name [source, period]) .numeric [source]
  | cross {name : String} {direction : Direction} (hnamed : SameLetters name direction.name)
      (left right : Tree) : Asks (.call name [left, right]) .numeric [left, right]
  | compare (op : CompareOp) (left right : Tree) :
      Asks (.compare op left right) .numeric [left, right]
  | logical (op : BoolOp) (left right : Tree) :
      Asks (.logical op left right) .boolean [left, right]
  | wrong {name : String} {args : List Tree} (hwrong : KnownFunction name → args.length ≠ 2)
      (expected : ExprType) : Asks (.call name args) expected args

/-- What is wrong with a node itself, of which a type is wanted. -/
inductive LocalFault (wanted : ExprType) : Tree → Stage → TypeError → Prop
  | identifier {name : String} (hunknown : ¬ KnownIdentifier name) :
      LocalFault wanted (.identifier name) .opening (.unknownIdentifier name)
  | function {name : String} (hunknown : ¬ KnownFunction name) (args : List Tree) :
      LocalFault wanted (.call name args) .opening (.unknownFunction name)
  | arity {name : String} {function : Function} (hnamed : SameLetters name function.name)
      {args : List Tree} (hcount : args.length ≠ 2) :
      LocalFault wanted (.call name args) .opening (.arityMismatch function args.length)
  | period {name : String} {indicator : Indicator} (hnamed : SameLetters name indicator.name)
      (source : Tree) {period : Tree} (hcomputed : ∀ value, period ≠ .number value) :
      LocalFault wanted (.call name [source, period]) (.operand 1)
        (.periodNotLiteral (.indicator indicator))
  | type {tree : Tree} {found : ExprType} (hhead : HeadType tree found) (hother : found ≠ wanted) :
      LocalFault wanted tree .closing (.typeMismatch wanted found)

inductive Fault : ExprType → Tree → List Stage → TypeError → Prop
  | here {wanted : ExprType} {tree : Tree} {stage : Stage} {error : TypeError}
      (hfault : LocalFault wanted tree stage error) : Fault wanted tree [stage] error
  | inside {expected : ExprType} {tree operand : Tree} {operands : List Tree} {index : Nat}
      {place : List Stage} {error : TypeError} (wanted : ExprType)
      (hasks : Asks tree expected operands) (hfound : operands[index]? = some operand)
      (hfault : Fault expected operand place error) :
      Fault wanted tree (.operand index :: place) error

structure FirstFault (wanted : ExprType) (tree : Tree) (place : List Stage) (error : TypeError) :
    Prop where
  fault : Fault wanted tree place error
  least {place' : List Stage} {error' : TypeError} (hfault : Fault wanted tree place' error') :
    place' = place ∧ error' = error ∨ Before place place'

/-- The path leads to an operand that is asked for the expected type. -/
inductive Reaches : ExprType → Tree → List Stage → ExprType → Tree → Prop
  | here (wanted : ExprType) (tree : Tree) : Reaches wanted tree [] wanted tree
  | inside {expected expected' : ExprType} {tree operand operand' : Tree} {operands : List Tree}
      {index : Nat} {path : List Stage} (wanted : ExprType) (hasks : Asks tree expected operands)
      (hfound : operands[index]? = some operand)
      (hreaches : Reaches expected operand path expected' operand') :
      Reaches wanted tree (.operand index :: path) expected' operand'

def HasType (tree : Tree) : ExprType → Prop
  | .numeric => IsNumeric tree
  | .boolean => IsCondition tree

variable {name : String} {tree operand left right : Tree} {operands args : List Tree}
  {wanted expected found : ExprType} {error : TypeError} {stage : Stage} {place : List Stage}

theorem function_unique (function function' : Function) (hnamed : SameLetters name function.name)
    (hnamed' : SameLetters name function'.name) : function = function' := by
  have hfunction := ofName?_eq_some.mpr hnamed
  rw [ofName?_eq_some.mpr hnamed'] at hfunction
  exact (Option.some.inj hfunction).symm

theorem not_indicator_and_cross {indicator : Indicator} {direction : Direction}
    (hnamed : SameLetters name indicator.name) : ¬ SameLetters name direction.name := by
  intro hnamed'
  exact nomatch function_unique (.indicator indicator) (.cross direction) hnamed hnamed'

theorem stage_of_known_call {first second : Tree} (hknown : KnownFunction name)
    (hfault : LocalFault wanted (.call name [first, second]) stage error) :
    stage = .closing ∨
      (∃ indicator : Indicator, SameLetters name indicator.name) ∧ stage = .operand 1 ∧
        ∀ value, second ≠ .number value := by
  cases hfault with
  | function hunknown => exact absurd hknown hunknown
  | arity _ hcount => exact absurd rfl hcount
  | period hnamed _ hcomputed => exact .inr ⟨⟨_, hnamed⟩, rfl, hcomputed⟩
  | type => exact .inl rfl

theorem stage_of_cross {direction : Direction} (hnamed : SameLetters name direction.name)
    (hfault : LocalFault wanted (.call name [left, right]) stage error) : stage = .closing := by
  obtain rfl | ⟨⟨_, hnamed'⟩, -⟩ := stage_of_known_call ⟨.cross direction, hnamed⟩ hfault
  · rfl
  · exact absurd hnamed (not_indicator_and_cross hnamed')

/-- The node asks the operands, and them alone, for the expected type, and whatever else is wrong
with it comes after them. -/
structure Fit (tree : Tree) (expected : ExprType) (operands : List Tree) : Prop where
  asks : Asks tree expected operands
  sole {expected' : ExprType} {operands' : List Tree} (hasks : Asks tree expected' operands') :
    expected' = expected ∧ operands' = operands
  quiet {wanted : ExprType} {stage : Stage} {error : TypeError} {index : Nat}
    (hbound : index < operands.length) (hfault : LocalFault wanted tree stage error) :
    (Stage.operand index).Precedes stage

theorem fit_compare (op : CompareOp) (left right : Tree) :
    Fit (.compare op left right) .numeric [left, right] where
  asks := .compare op left right
  sole := by
    rintro _ _ ⟨⟩
    exact ⟨rfl, rfl⟩
  quiet := by
    rintro _ _ _ _ - ⟨⟩
    trivial

theorem fit_logical (op : BoolOp) (left right : Tree) :
    Fit (.logical op left right) .boolean [left, right] where
  asks := .logical op left right
  sole := by
    rintro _ _ ⟨⟩
    exact ⟨rfl, rfl⟩
  quiet := by
    rintro _ _ _ _ - ⟨⟩
    trivial

theorem fit_cross {direction : Direction} (hnamed : SameLetters name direction.name)
    (left right : Tree) : Fit (.call name [left, right]) .numeric [left, right] where
  asks := .cross hnamed left right
  sole := by
    intro _ _ hasks'
    cases hasks' with
    | indicator hnamed' => exact absurd hnamed (not_indicator_and_cross hnamed')
    | cross => exact ⟨rfl, rfl⟩
    | wrong hwrong => exact absurd rfl (hwrong ⟨.cross direction, hnamed⟩)
  quiet := by
    intro _ _ _ _ _ hfault
    obtain rfl := stage_of_cross hnamed hfault
    trivial

theorem fit_indicator {indicator : Indicator} (hnamed : SameLetters name indicator.name)
    (source period : Tree) : Fit (.call name [source, period]) .numeric [source] where
  asks := .indicator hnamed source period
  sole := by
    intro _ _ hasks'
    cases hasks' with
    | indicator => exact ⟨rfl, rfl⟩
    | cross hnamed' => exact absurd hnamed' (not_indicator_and_cross hnamed)
    | wrong hwrong => exact absurd rfl (hwrong ⟨.indicator indicator, hnamed⟩)
  quiet := by
    intro _ _ _ _ hbound hfault
    obtain rfl | ⟨-, rfl, -⟩ := stage_of_known_call ⟨.indicator indicator, hnamed⟩ hfault
    · trivial
    · exact hbound

theorem headType_unique {found' : ExprType} (hhead : HeadType tree found)
    (hhead' : HeadType tree found') : found = found' := by
  cases hhead with
  | indicator hnamed =>
      cases hhead' with
      | indicator => rfl
      | cross hnamed' => exact absurd hnamed' (not_indicator_and_cross hnamed)
  | cross hnamed =>
      cases hhead' with
      | indicator hnamed' => exact absurd hnamed (not_indicator_and_cross hnamed')
      | cross => rfl
  | _ =>
      cases hhead'
      rfl

theorem localFault_unique {error' : TypeError} (hfault : LocalFault wanted tree stage error)
    (hfault' : LocalFault wanted tree stage error') : error' = error := by
  cases hfault with
  | identifier =>
      cases hfault'
      rfl
  | function hunknown =>
      cases hfault' with
      | function => rfl
      | arity hnamed => exact absurd ⟨_, hnamed⟩ hunknown
  | arity hnamed =>
      cases hfault' with
      | function hunknown => exact absurd ⟨_, hnamed⟩ hunknown
      | arity hnamed' => rw [function_unique _ _ hnamed hnamed']
  | @period _ indicator hnamed =>
      cases hfault' with
      | @period _ indicator' hnamed' =>
          rw [function_unique (.indicator indicator) (.indicator indicator') hnamed hnamed']
  | type hhead =>
      cases hfault' with
      | type hhead' => rw [headType_unique hhead hhead']

theorem Stage.eq_or_precedes {stage stage' : Stage} (hlater : ¬ stage'.Precedes stage) :
    stage' = stage ∨ stage.Precedes stage' := by
  match stage, stage' with
  | .opening, .opening | .closing, .closing => exact .inl rfl
  | .opening, .operand _ | .opening, .closing | .operand _, .closing => exact .inr trivial
  | .operand index, .operand index' =>
      obtain hindex | hindex := Nat.eq_or_lt_of_not_lt hlater
      · exact .inl (congrArg _ hindex)
      · exact .inr hindex
  | .operand _, .opening | .closing, .opening | .closing, .operand _ => exact absurd trivial hlater

theorem Stage.Precedes.asymm {stage stage' : Stage} (hearlier : stage.Precedes stage') :
    ¬ stage'.Precedes stage := by
  match stage, stage' with
  | .opening, .operand _ | .opening, .closing | .operand _, .closing => exact id
  | .operand _, .operand _ => exact Nat.lt_asymm hearlier

/-- The only fault the tree can have is a type other than its own wanted of it. -/
def OnlyMismatch (tree : Tree) (found : ExprType) : Prop :=
  ∀ wanted place error, Fault wanted tree place error →
    place = [.closing] ∧ found ≠ wanted ∧ error = .typeMismatch wanted found

theorem OnlyMismatch.not_fault (honly : OnlyMismatch tree found) :
    ¬ Fault found tree place error := by
  intro hfault
  obtain ⟨-, hother, -⟩ := honly _ _ _ hfault
  exact hother rfl

theorem onlyMismatch_of_inner (hhead : HeadType tree found)
    (hown : ∀ {wanted stage error}, LocalFault wanted tree stage error → stage = .closing)
    (hinner : ∀ {expected operands}, Asks tree expected operands →
      ∀ operand ∈ operands, OnlyMismatch operand expected) : OnlyMismatch tree found := by
  intro wanted place error hfault
  cases hfault with
  | here hlocal =>
      obtain rfl := hown hlocal
      cases hlocal with
      | type hhead' hother =>
          obtain rfl := headType_unique hhead hhead'
          exact ⟨rfl, hother, rfl⟩
  | inside _ hasks hoperand hfault =>
      exact absurd hfault (hinner hasks _ (List.mem_of_getElem? hoperand)).not_fault

theorem Fit.onlyMismatch (hfit : Fit tree expected operands) (hhead : HeadType tree found)
    (hown : ∀ {wanted stage error}, LocalFault wanted tree stage error → stage = .closing)
    (hinner : ∀ operand ∈ operands, OnlyMismatch operand expected) : OnlyMismatch tree found := by
  apply onlyMismatch_of_inner hhead hown
  intro expected' operands' hasks
  obtain ⟨rfl, rfl⟩ := hfit.sole hasks
  exact hinner

theorem headType_of_isNumeric (hnumeric : IsNumeric tree) : HeadType tree .numeric := by
  cases hnumeric with
  | column => exact .identifier _
  | yesterday => exact .identifier _
  | number value => exact .number value
  | indicator hknown =>
      obtain ⟨_, hknown, hnamed⟩ := hknown
      obtain ⟨indicator, rfl⟩ := mem_indicatorNames.mp hknown
      exact .indicator hnamed _

theorem headType_of_isCondition (hcondition : IsCondition tree) : HeadType tree .boolean := by
  cases hcondition with
  | compare => exact .compare _ _ _
  | cross hknown =>
      obtain ⟨_, hknown, hnamed⟩ := hknown
      obtain ⟨direction, rfl⟩ := mem_crossNames.mp hknown
      exact .cross hnamed _
  | logical => exact .logical _ _ _

theorem onlyMismatch_identifier (hknown : KnownIdentifier name) :
    OnlyMismatch (.identifier name) .numeric := by
  apply onlyMismatch_of_inner (.identifier name)
  · intro _ _ _ hfault
    cases hfault with
    | identifier hunknown => exact absurd hknown hunknown
    | type => rfl
  · nofun

theorem onlyMismatch_of_isNumeric (hnumeric : IsNumeric tree) : OnlyMismatch tree .numeric := by
  induction hnumeric with
  | column hknown => exact onlyMismatch_identifier (.inl hknown)
  | yesterday hknown => exact onlyMismatch_identifier (.inr ⟨_, hknown, rfl⟩)
  | number value =>
      apply onlyMismatch_of_inner (.number value)
      · rintro _ _ _ ⟨⟩
        rfl
      · nofun
  | @indicator name source hknown hnumeric literal ih =>
      obtain ⟨_, hknown, hnamed⟩ := hknown
      obtain ⟨indicator, rfl⟩ := mem_indicatorNames.mp hknown
      apply (fit_indicator hnamed _ _).onlyMismatch (.indicator hnamed _)
      · intro _ _ _ hfault
        obtain rfl | ⟨-, -, hcomputed⟩ := stage_of_known_call ⟨.indicator indicator, hnamed⟩ hfault
        · rfl
        · exact absurd rfl (hcomputed literal)
      · simpa using ih

theorem onlyMismatch_of_isCondition (hcondition : IsCondition tree) :
    OnlyMismatch tree .boolean := by
  induction hcondition with
  | compare op hnumeric hnumeric' =>
      apply (fit_compare op _ _).onlyMismatch (.compare _ _ _)
      · rintro _ _ _ ⟨⟩
        rfl
      · simpa using ⟨onlyMismatch_of_isNumeric hnumeric, onlyMismatch_of_isNumeric hnumeric'⟩
  | cross hknown hnumeric hnumeric' =>
      obtain ⟨_, hknown, hnamed⟩ := hknown
      obtain ⟨direction, rfl⟩ := mem_crossNames.mp hknown
      apply (fit_cross hnamed _ _).onlyMismatch (.cross hnamed _)
      · exact stage_of_cross hnamed
      · simpa using ⟨onlyMismatch_of_isNumeric hnumeric, onlyMismatch_of_isNumeric hnumeric'⟩
  | logical op hcondition hcondition' ih ih' =>
      apply (fit_logical op _ _).onlyMismatch (.logical _ _ _)
      · rintro _ _ _ ⟨⟩
        rfl
      · simpa using ⟨ih, ih'⟩

theorem headType_of_hasType (htyped : HasType tree found) : HeadType tree found := by
  cases found with
  | numeric => exact headType_of_isNumeric htyped
  | boolean => exact headType_of_isCondition htyped

theorem onlyMismatch_of_hasType (htyped : HasType tree found) : OnlyMismatch tree found := by
  cases found with
  | numeric => exact onlyMismatch_of_isNumeric htyped
  | boolean => exact onlyMismatch_of_isCondition htyped

theorem FirstFault.unique {place' : List Stage} {error' : TypeError}
    (hfirst : FirstFault wanted tree place error) (hfirst' : FirstFault wanted tree place' error') :
    place' = place ∧ error' = error := by
  obtain hsame | hbefore := hfirst.least hfirst'.fault
  · exact hsame
  · obtain ⟨rfl, rfl⟩ | hbefore' := hfirst'.least hfirst.fault
    · exact ⟨rfl, rfl⟩
    · exact absurd hbefore' (List.lex_asymm Stage.Precedes.asymm hbefore)

theorem firstFault_mismatch (htyped : HasType tree found) (hother : found ≠ wanted) :
    FirstFault wanted tree [.closing] (.typeMismatch wanted found) where
  fault := .here (.type (headType_of_hasType htyped) hother)
  least hfault := by
    obtain ⟨hplace, -, herror⟩ := onlyMismatch_of_hasType htyped _ _ _ hfault
    exact .inl ⟨hplace, herror⟩

theorem firstFault_here (hhere : LocalFault wanted tree stage error)
    (hearliest : ∀ {stage' error'}, LocalFault wanted tree stage' error' → ¬ stage'.Precedes stage)
    (hclear : ∀ {expected operands operand index}, Asks tree expected operands →
      operands[index]? = some operand → ¬ stage.Precedes (.operand index) →
      HasType operand expected) : FirstFault wanted tree [stage] error where
  fault := .here hhere
  least hfault := by
    cases hfault with
    | here hlocal =>
        obtain rfl | hlater := Stage.eq_or_precedes (hearliest hlocal)
        · exact .inl ⟨rfl, localFault_unique hhere hlocal⟩
        · exact .inr (.rel hlater)
    | @inside _ _ _ _ index _ _ _ hasks hoperand hfault =>
        by_cases hlater : stage.Precedes (.operand index)
        · exact .inr (.rel hlater)
        · have htyped := hclear hasks hoperand hlater
          exact absurd hfault (onlyMismatch_of_hasType htyped).not_fault

theorem Fit.firstFault_inside (hfit : Fit tree expected operands) {index : Nat}
    (hoperand : operands[index]? = some operand)
    (hclear : ∀ {index' operand'}, index' < index → operands[index']? = some operand' →
      HasType operand' expected)
    (hfirst : FirstFault expected operand place error) (wanted : ExprType) :
    FirstFault wanted tree (.operand index :: place) error where
  fault := .inside wanted hfit.asks hoperand hfirst.fault
  least hfault := by
    cases hfault with
    | here hlocal =>
        exact .inr (.rel (hfit.quiet (List.getElem?_eq_some_iff.mp hoperand).1 hlocal))
    | @inside _ _ _ _ index' _ _ _ hasks hoperand' hfault =>
        obtain ⟨rfl, rfl⟩ := hfit.sole hasks
        obtain hindex | rfl | hindex := Nat.lt_trichotomy index' index
        · have htyped := hclear hindex hoperand'
          exact absurd hfault (onlyMismatch_of_hasType htyped).not_fault
        · obtain rfl := Option.some.inj (hoperand.symm.trans hoperand')
          obtain ⟨rfl, rfl⟩ | hbefore := hfirst.least hfault
          · exact .inl ⟨rfl, rfl⟩
          · exact .inr (.cons hbefore)
        · exact .inr (.rel hindex)

theorem FirstFault.of_inside {index : Nat}
    (hfirst : FirstFault wanted tree (.operand index :: place) error)
    (hasks : Asks tree expected operands) (hoperand : operands[index]? = some operand)
    (hfault : Fault expected operand place error) : FirstFault expected operand place error where
  fault := hfault
  least hfault := by
    obtain ⟨hplace, herror⟩ | hbefore := hfirst.least (.inside wanted hasks hoperand hfault)
    · exact .inl ⟨(List.cons.inj hplace).2, herror⟩
    · cases hbefore with
      | cons hbefore => exact .inr hbefore
      | rel hindex => exact absurd hindex (Nat.lt_irrefl index)

theorem reaches_of_mismatch (hfault : Fault wanted tree place (.typeMismatch expected found))
    (hfirst : FirstFault wanted tree place (.typeMismatch expected found)) :
    ∃ path operand, place = path ++ [.closing] ∧ Reaches wanted tree path expected operand ∧
      FirstFault expected operand [.closing] (.typeMismatch expected found) := by
  generalize herror : TypeError.typeMismatch expected found = error at hfault
  induction hfault with
  | here hfault =>
      subst herror
      cases hfault with
      | type => exact ⟨[], _, rfl, .here _ _, hfirst⟩
  | @inside _ _ _ _ index _ _ wanted hasks hoperand hfault ih =>
      subst herror
      obtain ⟨path, operand, rfl, hreaches, hfirst⟩ :=
        ih (hfirst.of_inside hasks hoperand hfault) rfl
      exact ⟨.operand index :: path, operand, rfl, .inside wanted hasks hoperand hreaches, hfirst⟩

end Backtest.Proofs.FaultPlace
