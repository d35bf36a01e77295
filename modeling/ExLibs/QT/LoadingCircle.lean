/-
# The loading circle

A `qLoadingCircle` paints with one brush of its list after the other. The index of the brush is
set by the tick that completes the circle and by `init`, while other calls change the list. What
a clearing of the list takes away from under the index has to be made up for before the next
repaint.
-/
import Mathlib.Algebra.Order.Ring.Int
import ExLibs.Math.Record

namespace ExLibs.QT

open ExLibs.Math

/-- `QBrush`, as it is constructed here. -/
inductive QBrush (QColor QGradient : Type*)
  | color (color : QColor)
  | gradient (gradient : QGradient)
  /-- Of a `QConicalGradient` with a colour at 0 and one at 1. -/
  | conical (centerX centerY angle : ℤ) (color1 color2 : QColor)
  deriving DecidableEq

/-- A call of `drawArc`, with the `_vecColor.at( i )` that its brush comes from. -/
structure Arc (QColor QGradient : Type*) where
  i : ℤ
  /-- `_vecColor.size()`. -/
  size : ℤ
  /-- There is none out of range, where `at` is undefined. -/
  brush : Option (QBrush QColor QGradient)
  nSpan : ℤ
  deriving DecidableEq

/-- `qLoadingCircle`. What has been drawn is a record. -/
structure QLoadingCircle (QColor QGradient : Type*) where
  vecColor : List (QBrush QColor QGradient) := []
  /-- `_timer` is not null. -/
  timer : Bool := false
  /-- `_painter` is not null. -/
  painter : Bool := false
  nCurrentLength : ℤ := 0
  nCurrentIdx : ℤ := 0
  isFirstRun : Bool := true
  width : ℤ := 100
  height : ℤ := 100
  hasParent : Bool
  drawn : List (Arc QColor QGradient) := []

/-- What happens to a circle: calls, ticks of the timer and repaints. -/
inductive CircleLabel (QColor QGradient : Type*)
  | addColor (color : QColor)
  | addGradientColor (gradient : QGradient)
  | addGradientAuto (color1 color2 : QColor)
  | clearColor
  | setDefaultColor
  | start
  | stop
  | updateAnimation
  | paintEvent
  deriving DecidableEq

variable {QColor QGradient : Type*}

namespace CircleLabel

/-- It adds a brush to the list. -/
def isAdding : CircleLabel QColor QGradient → Bool
  | addColor _ | addGradientColor _ | addGradientAuto .. => true
  | _ => false

def isTick : CircleLabel QColor QGradient → Bool
  | updateAnimation => true
  | _ => false

/-- How many brushes it leaves in the list, if it clears it. -/
def leaves : CircleLabel QColor QGradient → Option ℕ
  | clearColor => some 0
  | setDefaultColor => some 3
  | _ => none

end CircleLabel

namespace QLoadingCircle

variable {c d u : QLoadingCircle QColor QGradient}

/-- `_vecColor.size()`. -/
def size (c : QLoadingCircle QColor QGradient) : ℤ := c.vecColor.length

/-- `_vecColor.push_back`. -/
def pushBack (c : QLoadingCircle QColor QGradient) (brush : QBrush QColor QGradient) :
    QLoadingCircle QColor QGradient :=
  { c with vecColor := c.vecColor ++ [brush] }

/-- `QVector` counts its elements in an `int`. -/
def hasRoom (c : QLoadingCircle QColor QGradient) : Bool := c.vecColor.length + 1 < 2 ^ 31

def addColor (c : QLoadingCircle QColor QGradient) (color : QColor) :
    QLoadingCircle QColor QGradient := c.pushBack (.color color)

def addGradientColor (c : QLoadingCircle QColor QGradient) (gradient : QGradient) :
    QLoadingCircle QColor QGradient := c.pushBack (.gradient gradient)

def addGradientAuto (c : QLoadingCircle QColor QGradient) (color1 color2 : QColor) :
    QLoadingCircle QColor QGradient :=
  c.pushBack (.conical (c.width.tdiv 2) (c.height.tdiv 2) 93 color1 color2)

def clearColor (c : QLoadingCircle QColor QGradient) : QLoadingCircle QColor QGradient :=
  { c with vecColor := [] }

/-- `SetDefaultColor`, where a `QColor` can be constructed from its name. -/
def setDefaultColor (named : String → QColor) (c : QLoadingCircle QColor QGradient) :
    QLoadingCircle QColor QGradient :=
  ((c.clearColor.addGradientAuto (named "#3eccd5") (named "#6c8ad6")).addGradientAuto
    (named "#6c8ad6") (named "#8d39d7")).addGradientAuto (named "#8d39d7") (named "#3eccd5")

def init (c : QLoadingCircle QColor QGradient) : QLoadingCircle QColor QGradient :=
  { c with
    timer := true
    painter := true
    nCurrentIdx := 0
    nCurrentLength := 0
    isFirstRun := true }

def stop (c : QLoadingCircle QColor QGradient) : QLoadingCircle QColor QGradient :=
  init { c with timer := false, painter := false }

def updateAnimation (c : QLoadingCircle QColor QGradient) : QLoadingCircle QColor QGradient :=
  if c.nCurrentLength < 360 then { c with nCurrentLength := c.nCurrentLength + 10 }
  else { c with
    isFirstRun := false
    nCurrentIdx := if c.size ≤ c.nCurrentIdx + 1 then 0 else c.nCurrentIdx + 1
    nCurrentLength := 0 }

/-- An arc that is drawn with `_vecColor.at( i )`. -/
def arc (c : QLoadingCircle QColor QGradient) (i nSpan : ℤ) : Arc QColor QGradient where
  i := i
  size := c.size
  brush := if 0 ≤ i then c.vecColor[i.toNat]? else none
  nSpan := nSpan

/-- `nPrevIdx`. -/
def prevIdx (c : QLoadingCircle QColor QGradient) : ℤ :=
  if c.nCurrentIdx - 1 < 0 then c.size - 1 else c.nCurrentIdx - 1

/-- What `paintEvent` draws: the whole circle before, and the part of the present one. -/
def paintEvent (c : QLoadingCircle QColor QGradient) : List (Arc QColor QGradient) :=
  if c.painter = false then []
  else (if c.isFirstRun = false then [c.arc c.prevIdx (-360 * 16)] else []) ++
    [c.arc c.nCurrentIdx (-c.nCurrentLength * 16 + 1)]

/-- The constructor. -/
def create (named : String → QColor) (hasParent : Bool) : QLoadingCircle QColor QGradient :=
  (setDefaultColor named { hasParent }).init

/-- What happens next, if it can. A tick may come at any time. -/
def step (named : String → QColor) (c : QLoadingCircle QColor QGradient) :
    CircleLabel QColor QGradient → Option (QLoadingCircle QColor QGradient)
  | .addColor color => if c.hasRoom then some (c.addColor color) else none
  | .addGradientColor gradient => if c.hasRoom then some (c.addGradientColor gradient) else none
  | .addGradientAuto color1 color2 =>
    if c.hasRoom then some (c.addGradientAuto color1 color2) else none
  | .clearColor => some c.clearColor
  | .setDefaultColor => some (c.setDefaultColor named)
  -- it looks at its parent, which must not be null
  | .start => if c.timer = true ∧ c.hasParent = false then none else some c
  | .stop => some c.stop
  | .updateAnimation => some c.updateAnimation
  | .paintEvent => some { c with drawn := c.drawn ++ c.paintEvent }

/-- Every `_vecColor.at( i )` has been in range. -/
def InRange (c : QLoadingCircle QColor QGradient) : Prop :=
  ∀ arc ∈ c.drawn, 0 ≤ arc.i ∧ arc.i < arc.size

/-- After a clearing that has left some brushes, there are brushes in the list, and more than the
index at the clearing, unless `Stop` or a tick at a full circle has moved the index. -/
def Refills (c : QLoadingCircle QColor QGradient) (left : ℕ)
    (calls : List (CircleLabel QColor QGradient)) : Prop :=
  0 < left + calls.countP CircleLabel.isAdding ∧
    (c.nCurrentIdx < ↑(left + calls.countP CircleLabel.isAdding) ∨ .stop ∈ calls ∨
      360 < c.nCurrentLength + 10 * calls.countP CircleLabel.isTick)

/-- What happens after the last clearing of the list, if there has been one, refills it. -/
def Refilled (named : String → QColor) (hasParent : Bool)
    (labels : List (CircleLabel QColor QGradient)) : Prop :=
  ∀ before clearing calls left c, labels = before ++ clearing :: calls →
    clearing.leaves = some left → (∀ call ∈ calls, call.leaves = none) →
      Run (step named) Free (create named hasParent) before c → c.Refills left calls

/-- A repaint comes when the list is refilled. -/
def Permits (named : String → QColor) (hasParent : Bool)
    (before : List (CircleLabel QColor QGradient)) : CircleLabel QColor QGradient → Prop
  | .paintEvent => Refilled named hasParent before
  | _ => True

variable {named : String → QColor} {hasParent : Bool} {left : ℕ}
  {label : CircleLabel QColor QGradient} {labels calls : List (CircleLabel QColor QGradient)}

/-- What a step does. -/
inductive Step (c : QLoadingCircle QColor QGradient) :
    CircleLabel QColor QGradient → QLoadingCircle QColor QGradient → Prop
  | add {label : CircleLabel QColor QGradient} {brush : QBrush QColor QGradient}
      (adds : label.isAdding = true) (keeps : label.leaves = none) (room : c.hasRoom = true) :
      Step c label (c.pushBack brush)
  | clear {label : CircleLabel QColor QGradient} {vecColor : List (QBrush QColor QGradient)}
      (clears : label.leaves = some vecColor.length) : Step c label { c with vecColor }
  | start : Step c .start c
  | stop : Step c .stop c.init
  | tick : Step c .updateAnimation c.updateAnimation
  | paint : Step c .paintEvent { c with drawn := c.drawn ++ c.paintEvent }

theorem step_cases (next : c.step named label = some d) : Step c label d := by
  cases label with
  | addColor | addGradientColor | addGradientAuto =>
    obtain ⟨room, ⟨⟩⟩ := Option.ite_none_right_eq_some.mp next
    exact .add rfl rfl room
  | clearColor => exact Option.some.inj next ▸ .clear rfl
  | setDefaultColor => exact Option.some.inj next ▸ .clear rfl
  | start =>
    obtain ⟨-, ⟨⟩⟩ := Option.ite_none_left_eq_some.mp next
    exact .start
  | stop => exact Option.some.inj next ▸ .stop
  | updateAnimation => exact Option.some.inj next ▸ .tick
  | paintEvent => exact Option.some.inj next ▸ .paint

section Arithmetic

/-- The numbers of a circle are in their ranges, and it has a painter. -/
structure Steady (c : QLoadingCircle QColor QGradient) : Prop where
  painter : c.painter = true
  nonneg : 0 ≤ c.nCurrentIdx
  /-- No `int` overflows. -/
  small : c.nCurrentIdx + 1 < 2 ^ 31 ∧ c.size < 2 ^ 31
  length : c.nCurrentLength ≤ 360 ∧ 10 ∣ c.nCurrentLength

theorem steady_init (bounded : c.size < 2 ^ 31) : c.init.Steady :=
  ⟨rfl, le_rfl, ⟨by simp [init], bounded⟩, by simp [init]⟩

theorem Steady.keep (steady : c.Steady) (next : c.step named label = some d) : d.Steady := by
  obtain ⟨painter, nonneg, ⟨small, bounded⟩, short, tens⟩ := steady
  cases step_cases next with
  | add adds keeps room =>
    have room : c.vecColor.length + 1 < 2 ^ 31 := of_decide_eq_true room
    refine ⟨painter, nonneg, ⟨small, ?_⟩, short, tens⟩
    simp only [size, pushBack, List.length_append, List.length_singleton]
    omega
  | @clear _ vecColor clears =>
    have few : vecColor.length = 0 ∨ vecColor.length = 3 := by
      cases label <;> simp_all [CircleLabel.leaves]
    refine ⟨painter, nonneg, ⟨small, ?_⟩, short, tens⟩
    simp only [size]
    omega
  | start | paint => exact ⟨painter, nonneg, ⟨small, bounded⟩, short, tens⟩
  | stop => exact steady_init bounded
  | tick =>
    unfold updateAnimation
    split
    · refine ⟨painter, nonneg, ⟨small, bounded⟩, ?_, Int.dvd_add tens (Int.dvd_refl 10)⟩
      dsimp only
      omega
    · refine ⟨painter, ?_, ⟨?_, bounded⟩, by simp⟩
      · dsimp only
        split <;> omega
      · dsimp only
        split <;> omega

theorem size_init : c.init.size = c.size := rfl

theorem size_setDefaultColor : (c.setDefaultColor named).size = 3 := rfl

theorem steady_of_run (run : Run (step named) Free (create named hasParent) labels c) :
    c.Steady := by
  have initial : (create named hasParent : QLoadingCircle QColor QGradient).Steady :=
    steady_init (by rw [size_setDefaultColor]; decide)
  exact run.invariant initial fun _ _ _ steady _ next => steady.keep next

/-- A repaint is in range exactly if the index is. -/
theorem Steady.paintEvent_iff (steady : c.Steady) :
    (∀ arc ∈ c.paintEvent, 0 ≤ arc.i ∧ arc.i < arc.size) ↔ c.nCurrentIdx < c.size := by
  have nonneg := steady.nonneg
  rw [paintEvent, if_neg (by simp [steady.painter]), List.forall_mem_append,
    List.forall_mem_singleton]
  constructor
  · exact fun reads => reads.2.2
  · intro inside
    -- the index before is the one below, or that of the last brush
    refine ⟨fun arc member => ?_, nonneg, inside⟩
    split at member
    · obtain rfl := List.mem_singleton.mp member
      simp only [QLoadingCircle.arc, prevIdx]
      split <;> omega
    · cases member

end Arithmetic

section Clearings

/-- The index is in the list, or at its beginning. -/
def Placed (c : QLoadingCircle QColor QGradient) : Prop :=
  c.nCurrentIdx < c.size ∨ c.nCurrentIdx = 0

theorem size_of_step (keeps : label.leaves = none) (next : c.step named label = some d) :
    d.size = c.size + [label].countP CircleLabel.isAdding := by
  cases step_cases next with
  | add adds => simp [size, pushBack, adds]
  | clear clears => cases keeps.symm.trans clears
  | tick =>
    unfold updateAnimation
    split <;> exact (Int.add_zero _).symm
  | start | stop | paint => exact (Int.add_zero _).symm

/-- Only `Stop` and ticks touch the index and the length. -/
theorem still_of_step (runs : label ≠ .stop) (idle : label.isTick = false)
    (next : c.step named label = some d) :
    d.nCurrentIdx = c.nCurrentIdx ∧ d.nCurrentLength = c.nCurrentLength := by
  cases step_cases next with
  | stop => exact absurd rfl runs
  | tick => cases idle
  | add | clear | start | paint => exact ⟨rfl, rfl⟩

theorem placed_of_full (full : 360 ≤ c.nCurrentLength) : c.updateAnimation.Placed := by
  rw [updateAnimation, if_neg (by omega)]
  by_cases ends : c.size ≤ c.nCurrentIdx + 1
  · exact .inr (if_pos ends)
  · exact .inl ((if_neg ends).trans_lt (not_le.mp ends))

theorem Placed.keep (placed : c.Placed) (keeps : label.leaves = none)
    (next : c.step named label = some d) : d.Placed := by
  have grows := size_of_step keeps next
  cases step_cases next with
  | stop => exact .inr rfl
  | tick =>
    rcases lt_or_ge c.nCurrentLength 360 with early | full
    · rw [updateAnimation, if_pos early]
      exact placed
    · exact placed_of_full full
  | clear clears => cases keeps.symm.trans clears
  | add | start | paint =>
    refine placed.imp (fun inside => ?_) id
    rw [grows]
    exact inside.trans_le (Int.le_add_of_nonneg_right (Int.natCast_nonneg _))

/-- Where a circle has come to since a clearing that has left some brushes: its index is as it was
then, or placed. -/
structure Since (c : QLoadingCircle QColor QGradient) (left : ℕ)
    (calls : List (CircleLabel QColor QGradient)) (u : QLoadingCircle QColor QGradient) : Prop where
  size : u.size = ↑(left + calls.countP CircleLabel.isAdding)
  moves : (.stop ∉ calls ∧ c.nCurrentLength + 10 * calls.countP CircleLabel.isTick ≤ 360 ∧
      u.nCurrentIdx = c.nCurrentIdx ∧
      u.nCurrentLength = c.nCurrentLength + 10 * calls.countP CircleLabel.isTick) ∨
    ((.stop ∈ calls ∨ 360 < c.nCurrentLength + 10 * calls.countP CircleLabel.isTick) ∧ u.Placed)

theorem Since.snoc (since : c.Since left calls u) (tens : 10 ∣ c.nCurrentLength)
    (keeps : label.leaves = none) (next : u.step named label = some d) :
    c.Since left (calls ++ [label]) d := by
  refine ⟨?_, ?_⟩
  · rw [size_of_step keeps next, since.size, List.countP_append, ← Nat.add_assoc]
    exact (Nat.cast_add _ _).symm
  rw [List.countP_append, List.mem_append, List.mem_singleton]
  rcases since.moves with ⟨unstopped, early, idx, length⟩ | ⟨moved, placed⟩
  · by_cases stops : label = .stop
    · subst stops
      obtain rfl := Option.some.inj next
      exact .inr ⟨.inl (.inr rfl), .inr rfl⟩
    have runs : ¬ (.stop ∈ calls ∨ .stop = label) := not_or.mpr ⟨unstopped, Ne.symm stops⟩
    cases ticks : label.isTick with
    | true =>
      obtain rfl : label = .updateAnimation := by cases label <;> first | rfl | cases ticks
      obtain rfl := Option.some.inj next
      have one : [(.updateAnimation : CircleLabel QColor QGradient)].countP
        CircleLabel.isTick = 1 := rfl
      rw [one, Nat.cast_add]
      rcases lt_or_ge u.nCurrentLength 360 with less | full
      · rw [updateAnimation, if_pos less]
        refine .inl ⟨runs, ?_, idx, ?_⟩
        · omega
        · dsimp only
          omega
      · exact .inr ⟨.inr (by omega), placed_of_full full⟩
    | false =>
      obtain ⟨same, same'⟩ := still_of_step stops ticks next
      have none : [label].countP CircleLabel.isTick = 0 := by simp [ticks]
      rw [none, Nat.add_zero, same, same']
      exact .inl ⟨runs, early, idx, length⟩
  · refine .inr ⟨moved.imp .inl fun full => ?_, placed.keep keeps next⟩
    rw [Nat.cast_add]
    omega

theorem since_of_run (tens : 10 ∣ c.nCurrentLength) (short : c.nCurrentLength ≤ 360)
    (clears : label.leaves = some left) (cleared : c.step named label = some d)
    (keeps : ∀ call ∈ calls, call.leaves = none) (run : Run (step named) Free d calls u) :
    c.Since left calls u := by
  induction run with
  | nil =>
    cases step_cases cleared with
    | clear clears' =>
      obtain rfl := Option.some.inj (clears.symm.trans clears')
      exact ⟨rfl, .inl ⟨List.not_mem_nil, by simpa, rfl, by simp⟩⟩
    | add adds keeps => cases clears.symm.trans keeps
    | start | stop | tick | paint => cases clears
  | snoc earlier _ next ih =>
    obtain ⟨before, last⟩ := List.forall_mem_append.mp keeps
    exact (ih before).snoc tens (last _ List.mem_cons_self) next

/-- The index is in the list exactly if the list has been refilled since it was cleared. -/
theorem Since.refills_iff (since : c.Since left calls u) (nonneg : 0 ≤ c.nCurrentIdx)
    (nonneg' : 0 ≤ u.nCurrentIdx) : c.Refills left calls ↔ u.nCurrentIdx < u.size := by
  obtain ⟨size, moves⟩ := since
  rw [Refills, size]
  rcases moves with ⟨unstopped, early, idx, -⟩ | ⟨moved, placed⟩
  · rw [idx]
    constructor
    · rintro ⟨-, inside | stops | full⟩
      · exact inside
      · exact absurd stops unstopped
      · exact absurd full (not_lt.mpr early)
    · exact fun inside => ⟨Int.natCast_pos.mp (nonneg.trans_lt inside), .inl inside⟩
  · rw [Placed, size] at placed
    constructor
    · rintro ⟨some, -⟩
      rcases placed with inside | first
      · exact inside
      · rw [first]
        exact Int.natCast_pos.mpr some
    · exact fun inside => ⟨Int.natCast_pos.mp (nonneg'.trans_lt inside), .inr moved⟩

/-- Before the list is cleared for the first time the index stays in it. -/
theorem inside_of_keeps (run : Run (step named) Free (create named hasParent) labels c)
    (keeps : ∀ label ∈ labels, label.leaves = none) : c.nCurrentIdx < c.size := by
  have holds : c.Placed ∧ 0 < c.size := by
    induction run with
    | nil => exact ⟨.inr rfl, by rw [create, size_init, size_setDefaultColor]; decide⟩
    | snoc earlier _ next ih =>
      obtain ⟨before, last⟩ := List.forall_mem_append.mp keeps
      obtain ⟨placed, some⟩ := ih before
      have keep := last _ List.mem_cons_self
      refine ⟨placed.keep keep next, ?_⟩
      rw [size_of_step keep next]
      exact Int.add_pos_of_pos_of_nonneg some (Int.natCast_nonneg _)
  rcases holds with ⟨inside | first, some⟩
  · exact inside
  · rwa [first]

/-- After a clearing in a run the list is refilled exactly if the index is in it. -/
theorem refills_iff_of_run {before : List (CircleLabel QColor QGradient)}
    (clears : label.leaves = some left) (keeps : ∀ call ∈ calls, call.leaves = none)
    (earlier : Run (step named) Free (create named hasParent) before c)
    (run : Run (step named) Free (create named hasParent) (before ++ label :: calls) u) :
    c.Refills left calls ↔ u.nCurrentIdx < u.size := by
  obtain ⟨c', earlier', executes⟩ := run.exists_of_append
  obtain rfl := earlier.unique earlier'
  rw [exec, Option.bind_eq_some_iff] at executes
  obtain ⟨d, cleared, later⟩ := executes
  obtain ⟨-, nonneg, -, short, tens⟩ := steady_of_run earlier
  have since := since_of_run tens short clears cleared keeps (run_of_exec later)
  exact since.refills_iff nonneg (steady_of_run run).nonneg

/-- The list is refilled exactly if the index is in it. -/
theorem refilled_iff (run : Run (step named) Free (create named hasParent) labels c) :
    Refilled named hasParent labels ↔ c.nCurrentIdx < c.size := by
  constructor
  · intro refilled
    rcases exists_last (fun label => label.leaves ≠ none) labels with keeps |
      ⟨before, clearing, calls, rfl, clears, since⟩
    · exact inside_of_keeps run fun label member => not_not.mp (keeps label member)
    · obtain ⟨left, clears⟩ := Option.ne_none_iff_exists'.mp clears
      obtain ⟨b, earlier, -⟩ := run.exists_of_append
      have keeps : ∀ call ∈ calls, call.leaves = none := fun call member =>
        not_not.mp (since call member)
      have refills := refilled before clearing calls left b rfl clears keeps earlier
      exact (refills_iff_of_run clears keeps earlier run).mp refills
  · rintro inside before clearing calls left b rfl clears keeps earlier
    exact (refills_iff_of_run clears keeps earlier run).mpr inside

end Clearings

theorem permits_of_ne (other : label ≠ .paintEvent) : Permits named hasParent labels label := by
  cases label with
  | paintEvent => exact absurd rfl other
  | _ => trivial

theorem inRange_iff_of_step (run : Run (step named) Free (create named hasParent) labels c)
    (next : c.step named label = some d) :
    d.InRange ↔ c.InRange ∧ Permits named hasParent labels label := by
  cases step_cases next with
  | paint =>
    rw [Permits, refilled_iff run, ← (steady_of_run run).paintEvent_iff]
    exact List.forall_mem_append
  | tick =>
    have same : c.updateAnimation.drawn = c.drawn := by
      unfold updateAnimation
      split <;> rfl
    rw [InRange, same]
    exact (and_iff_left trivial).symm
  | add adds =>
    have other : label ≠ .paintEvent := by
      rintro rfl
      cases adds
    exact (and_iff_left (permits_of_ne other)).symm
  | clear clears =>
    have other : label ≠ .paintEvent := by
      rintro rfl
      cases clears
    exact (and_iff_left (permits_of_ne other)).symm
  | start | stop => exact (and_iff_left trivial).symm

/-- In every run all brushes are looked for in range exactly if each repaint comes when the list
has been refilled since it was cleared. -/
theorem inRange_iff (run : Run (step named) Free (create named hasParent) labels c) :
    c.InRange ↔ Lawful (Permits named hasParent) labels := by
  have initial : (create named hasParent : QLoadingCircle QColor QGradient).InRange :=
    fun _ member => absurd member List.not_mem_nil
  exact run.good_iff_lawful initial fun _ _ _ _ => inRange_iff_of_step

instance : Decidable c.InRange := inferInstanceAs (Decidable (∀ arc ∈ c.drawn, _))

/-- The circle is complete once, and its brushes are replaced by two others. -/
def replaced : List (CircleLabel String Unit) :=
  .start :: List.replicate 37 .updateAnimation ++
    [.paintEvent, .clearColor, .addColor "red", .addColor "blue", .paintEvent]

theorem lawful_replaced : Lawful (Permits id true) replaced ∧
    ∃ c, Run (step id) Free (create id true) replaced c ∧ c.drawn.length = 4 := by
  obtain ⟨c, run, ended⟩ := @exists_run_of_exec _ _ (step id) (create id true) replaced
    (fun c => c.InRange ∧ c.drawn.length = 4) (by decide +kernel)
  obtain ⟨inRange, drawn⟩ := of_decide_eq_true ended
  exact ⟨(inRange_iff run).mp inRange, c, run, drawn⟩

/-- Without brushes there is nothing to look for. -/
theorem cleared_out_of_range : ¬ ∀ (labels : List (CircleLabel String Unit)) c,
    Run (step id) Free (create id true) labels c → c.InRange := by
  intro all
  obtain ⟨c, run, ended⟩ := @exists_run_of_exec _ _ (step id) (create id true)
    [(.clearColor : CircleLabel String Unit), .paintEvent] (fun c => ¬ c.InRange)
    (by decide +kernel)
  exact of_decide_eq_true ended (all _ c run)

end QLoadingCircle

end ExLibs.QT
