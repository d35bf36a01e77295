/-
# How a loading circle turns

`Start` connects the timer of a `qLoadingCircle` to `updateAnimation`, and connects it again
whenever it is called, so that each timeout then calls `updateAnimation` once for every `Start`
since the timer was made. A circle takes 37 of these calls for each brush, whatever order the calls,
the timeouts and the repaints come in: what it draws is a function of their number, as long as its
brushes are chosen before it turns.
-/
import Mathlib.Algebra.Order.Ring.Nat
import ExLibs.QT.LoadingCircle

namespace ExLibs.QT

open ExLibs.Math

/-- A circle, with how often the `timeout` of its timer is connected to `updateAnimation`. -/
structure ShownCircle (QColor QGradient : Type*) where
  circle : QLoadingCircle QColor QGradient
  connections : ℕ

/-- What happens to a circle. -/
inductive SweepLabel (QColor QGradient : Type*)
  | call (label : CircleLabel QColor QGradient)
  /-- The timer goes off. -/
  | timeout

namespace ShownCircle

variable {QColor QGradient : Type*}

/-- The connections of the timer after a call. They go with the timer. -/
def reconnect (s : ShownCircle QColor QGradient) : CircleLabel QColor QGradient → ℕ
  | .start => if s.circle.timer then s.connections + 1 else s.connections
  | .stop => 0
  | _ => s.connections

/-- One step, if the label is enabled. A timer goes off once it has been started, and nothing else
calls `updateAnimation`. -/
def step (named : String → QColor) (s : ShownCircle QColor QGradient) :
    SweepLabel QColor QGradient → Option (ShownCircle QColor QGradient)
  | .call label =>
    if label.isTick then none
    else (s.circle.step named label).map fun circle => ⟨circle, s.reconnect label⟩
  | .timeout =>
    if s.connections = 0 then none
    else some { s with circle := QLoadingCircle.updateAnimation^[s.connections] s.circle }

/-- The connections of the timer, and the calls of `updateAnimation` since `init`. -/
def count : ℕ × ℕ → SweepLabel QColor QGradient → ℕ × ℕ
  | (connections, calls), .call .start => (connections + 1, calls)
  | _, .call .stop => (0, 0)
  | counted, .call _ => counted
  | (connections, calls), .timeout => (connections, calls + connections)

/-- The calls of `updateAnimation` since `init`. -/
def calls (labels : List (SweepLabel QColor QGradient)) : ℕ := (labels.foldl count (0, 0)).2

/-- The brushes are changed only while the circle has not begun to turn. -/
def Settled (s : ShownCircle QColor QGradient) : SweepLabel QColor QGradient → Prop
  | .call label => label.isAdding = true ∨ label.leaves ≠ none →
      s.circle.isFirstRun = true ∧ s.circle.nCurrentLength = 0
  | .timeout => True

end ShownCircle

namespace QLoadingCircle

variable {QColor QGradient : Type*} {c : QLoadingCircle QColor QGradient} {n : ℕ}

/-- Where a circle is after some calls of `updateAnimation`. -/
structure Swept (c : QLoadingCircle QColor QGradient) (calls : ℕ) : Prop where
  made : c.timer = true ∧ c.painter = true
  nCurrentLength : c.nCurrentLength = 10 * (calls % 37 : ℕ)
  nCurrentIdx : c.vecColor ≠ [] ∨ calls = 0 →
    c.nCurrentIdx = (calls / 37 % c.vecColor.length : ℕ)
  isFirstRun : c.isFirstRun = decide (calls < 37)

theorem swept_init (c : QLoadingCircle QColor QGradient) : c.init.Swept 0 :=
  ⟨⟨rfl, rfl⟩, rfl, fun _ => by simp [init], rfl⟩

/-- It has not begun to turn. -/
theorem Swept.eq_zero (swept : c.Swept n) (first : c.isFirstRun = true)
    (short : c.nCurrentLength = 0) : n = 0 := by
  have few : n < 37 := of_decide_eq_true (swept.isFirstRun.symm.trans first)
  have whole := swept.nCurrentLength.symm.trans short
  omega

/-- Until then the brushes may be changed. -/
theorem Swept.recolor (swept : c.Swept 0) (vecColor : List (QBrush QColor QGradient)) :
    Swept { c with vecColor } 0 where
  made := swept.made
  nCurrentLength := swept.nCurrentLength
  nCurrentIdx _ := (swept.nCurrentIdx (.inr rfl)).trans (by simp)
  isFirstRun := swept.isFirstRun

/-- The remainder of the next number. -/
theorem succ_mod_eq_ite {q m : ℕ} (positive : 0 < m) :
    (q + 1) % m = if m ≤ q % m + 1 then 0 else q % m + 1 := by
  have below := Nat.mod_lt q positive
  rw [← Nat.mod_add_mod]
  split
  · next full =>
    have same : q % m + 1 = m := Nat.le_antisymm below full
    rw [same, Nat.mod_self]
  · next short => exact Nat.mod_eq_of_lt (not_le.mp short)

theorem Swept.updateAnimation (swept : c.Swept n) : c.updateAnimation.Swept (n + 1) := by
  obtain ⟨made, length, idx, first⟩ := swept
  unfold QLoadingCircle.updateAnimation
  -- 36 calls bring a circle to its whole length, and the next begins another
  by_cases early : c.nCurrentLength < 360
  · rw [if_pos early]
    have same : (n + 1) / 37 = n / 37 := by omega
    refine ⟨made, ?_, fun colored => ?_, ?_⟩
    · simp only [length]
      omega
    · rw [same]
      exact idx (.inl (colored.resolve_right (Nat.succ_ne_zero n)))
    · simp only [first, decide_eq_decide]
      omega
  · rw [if_neg early]
    have next : (n + 1) / 37 = n / 37 + 1 := by omega
    refine ⟨made, ?_, fun colored => ?_, ?_⟩
    · dsimp only
      omega
    · have colored := colored.resolve_right (Nat.succ_ne_zero n)
      rw [next, succ_mod_eq_ite (List.length_pos_iff.mpr colored)]
      simp only [size, idx (.inl colored)]
      norm_cast
    · dsimp only
      rw [eq_comm, decide_eq_false_iff_not]
      omega

/-- Several calls in a row. -/
theorem Swept.iterate (swept : c.Swept n) (m : ℕ) :
    (QLoadingCircle.updateAnimation^[m] c).Swept (n + m) := by
  induction m with
  | zero => exact swept
  | succ m ih =>
    rw [Function.iterate_succ_apply']
    exact ih.updateAnimation

/-- What a circle draws that has been swept so often. -/
theorem Swept.paintEvent_eq (swept : c.Swept n) (colored : c.vecColor ≠ []) : c.paintEvent =
    (if n < 37 then [] else [c.arc ((n / 37 - 1) % c.vecColor.length : ℕ) (-360 * 16)]) ++
      [c.arc (n / 37 % c.vecColor.length : ℕ) (-(160 * (n % 37 : ℕ)) + 1)] := by
  obtain ⟨⟨-, painter⟩, length, idx, first⟩ := swept
  have idx := idx (.inl colored)
  -- there has been a circle before, so that the brush before is the one that it had
  have behind (whole : 37 ≤ n) : c.prevIdx = ((n / 37 - 1) % c.vecColor.length : ℕ) := by
    obtain ⟨q, turns⟩ : ∃ q, n / 37 = q + 1 := ⟨n / 37 - 1, by omega⟩
    have below := Nat.mod_lt q (List.length_pos_iff.mpr colored)
    rw [prevIdx, idx, turns, succ_mod_eq_ite (List.length_pos_iff.mpr colored), size,
      Nat.add_sub_cancel]
    split <;> split <;> omega
  have span : -(10 * (n % 37 : ℕ)) * 16 + 1 = -(160 * (n % 37 : ℕ) : ℤ) + 1 := by omega
  rw [paintEvent, if_neg (by simp [painter]), length, idx, first, span]
  by_cases early : n < 37
  · simp [early]
  · rw [behind (not_lt.mp early)]
    simp [early]

end QLoadingCircle

namespace ShownCircle

variable {QColor QGradient : Type*} {named : String → QColor}
  {c : QLoadingCircle QColor QGradient} {s t : ShownCircle QColor QGradient}
  {label : SweepLabel QColor QGradient} {labels : List (SweepLabel QColor QGradient)}

/-- A circle has come as far as the numbers say. -/
structure Counted (counted : ℕ × ℕ) (s : ShownCircle QColor QGradient) : Prop where
  connections : s.connections = counted.1
  swept : s.circle.Swept counted.2

theorem Counted.step {counted : ℕ × ℕ} (before : s.Counted counted) (settled : s.Settled label)
    (next : s.step named label = some t) : t.Counted (count counted label) := by
  obtain ⟨connections, swept⟩ := before
  cases label with
  | call label =>
    obtain ⟨other, next⟩ := Option.ite_none_left_eq_some.mp next
    obtain ⟨circle, called, rfl⟩ := Option.map_eq_some_iff.mp next
    have recolored (changes : label.isAdding = true ∨ label.leaves ≠ none)
        (vecColor : List (QBrush QColor QGradient)) :
        QLoadingCircle.Swept { s.circle with vecColor } counted.2 := by
      obtain ⟨first, short⟩ := settled changes
      have zero := swept.eq_zero first short
      rw [zero] at swept ⊢
      exact swept.recolor vecColor
    cases label with
    | addColor | addGradientColor | addGradientAuto =>
      obtain ⟨-, ⟨⟩⟩ := Option.ite_none_right_eq_some.mp called
      exact ⟨connections, recolored (.inl rfl) _⟩
    | clearColor | setDefaultColor =>
      obtain rfl := Option.some.inj called
      exact ⟨connections, recolored (.inr nofun) _⟩
    | start =>
      obtain ⟨-, ⟨⟩⟩ := Option.ite_none_left_eq_some.mp called
      exact ⟨by simp [reconnect, swept.made.1, connections, count], swept⟩
    | stop =>
      obtain rfl := Option.some.inj called
      exact ⟨rfl, QLoadingCircle.swept_init _⟩
    | updateAnimation => exact absurd rfl other
    | paintEvent =>
      obtain rfl := Option.some.inj called
      exact ⟨connections, swept.made, swept.nCurrentLength, swept.nCurrentIdx, swept.isFirstRun⟩
  | timeout =>
    obtain ⟨-, ⟨⟩⟩ := Option.ite_none_left_eq_some.mp next
    have turned := swept.iterate s.connections
    rw [connections] at turned
    exact ⟨connections, connections ▸ turned⟩

theorem counted_of_run (run : Run (step named) Settled ⟨c.init, 0⟩ labels s) :
    s.Counted (labels.foldl count (0, 0)) := by
  induction run with
  | nil => exact ⟨rfl, QLoadingCircle.swept_init c⟩
  | snoc _ settled next ih =>
    rw [List.foldl_append]
    exact ih.step settled next

/-- Whatever has happened since a circle was made or stopped, if its brushes were chosen before it
turned, a repaint draws a part of the present circle, which grows by 10 degrees from one call of
`updateAnimation` to the next, and behind it the circle before, unless this is the first. A circle
takes 37 calls, and its brush is the next one. -/
theorem paintEvent_eq_of_calls (run : Run (step named) Settled ⟨c.init, 0⟩ labels s)
    (colored : s.circle.vecColor ≠ []) : s.circle.paintEvent =
      (if calls labels < 37 then []
        else [s.circle.arc ((calls labels / 37 - 1) % s.circle.vecColor.length : ℕ) (-360 * 16)]) ++
      [s.circle.arc (calls labels / 37 % s.circle.vecColor.length : ℕ)
        (-(160 * (calls labels % 37 : ℕ)) + 1)] :=
  (counted_of_run run).swept.paintEvent_eq colored

instance (s : ShownCircle QColor QGradient) : DecidablePred s.Settled
  | .call _ => inferInstanceAs (Decidable (_ → _))
  | .timeout => .isTrue trivial

/-- Two brushes are chosen. After the second `Start` a circle is complete in the nineteenth
timeout. -/
theorem paintEvent_of_restarted : ∃ s : ShownCircle String Unit, s.circle.paintEvent.length = 2 ∧
    s.circle.nCurrentLength = 10 := by
  obtain ⟨s, run, ended⟩ := @exists_run_of_guarded _ _ (step id) Settled
    (fun s label => s.Settled label) (fun _ _ => of_decide_eq_true)
    ⟨(QLoadingCircle.setDefaultColor id { hasParent := true }).init, 0⟩
    ([.call .clearColor, .call (.addColor "red"), .call (.addColor "blue"), .call .start,
      .call .start] ++ List.replicate 19 .timeout)
    (fun s : ShownCircle String Unit => s.circle.nCurrentLength = 10 ∧ s.circle.vecColor.length = 2)
    (by decide +kernel)
  obtain ⟨length, brushes⟩ := of_decide_eq_true ended
  refine ⟨s, ?_, length⟩
  rw [paintEvent_eq_of_calls run (List.ne_nil_of_length_eq_add_one brushes), if_neg (by decide)]
  rfl

end ShownCircle

end ExLibs.QT
