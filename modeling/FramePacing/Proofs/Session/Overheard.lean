import FramePacing.Proofs.Session.Operations

/-!
# Listening in

What a receiver is handed is known to the receiver alone.  `Overheard` is a receiver with someone
who listens in: he remembers every summary that it is handed and leaves all the rest to it.  So a
session before an overheard receiver is the session before that receiver, and what he remembers is
what was handed over there.

* `unheard_perform`, `unheard_performAll` — listening in changes nothing.
-/

namespace FramePacing

open Log Logged

/-- A receiver, and the summaries that it was handed, oldest first. -/
structure Overheard (ρ : Type) where
  inner : ρ
  heard : List Summary := []

instance {ρ : Type} [Receiver ρ] : Receiver (Overheard ρ) where
  receive summary profiler o := do
    let reply ← Receiver.receive summary profiler o.inner
    return ⟨reply.verdict, reply.profiler,
      { inner := reply.receiver, heard := o.heard ++ [summary] }⟩

namespace Session

variable {ρ : Type}

/-- The session before the receiver itself. -/
def unheard (s : Session (Overheard ρ)) : Session ρ :=
  ⟨s.profiler, s.cadence, s.receiver.inner, s.latest⟩

/-- An operation around an overheard receiver; what was heard cannot be changed. -/
def Operation.overheard : Operation ρ → Operation (Overheard ρ)
  | .event e => .event e
  | .call c => .call c
  | .handOver => .handOver
  | .adjust f => .adjust fun o => { o with inner := f o.inner }

section Unheard

variable (s : Session (Overheard ρ))

lemma unheard_reset : Related (fun s t => s.unheard = t) s.reset s.unheard.reset := by
  refine (Related.of_eq (x := s.profiler.reset) rfl).bind fun profiler _ h => ?_
  cases h
  exact related_pure rfl

variable [Receiver ρ]

lemma unheard_handOver :
    Related (SameAnswer fun s t => s.unheard = t) s.handOver s.unheard.handOver := by
  simp only [handOver, Profiler.handOver, Receiver.receive, bind_assoc, pure_bind]
  refine (Related.of_eq rfl).bind fun summary _ hsummary => ?_
  cases hsummary
  refine (Related.of_eq rfl).bind fun reply _ hreply => ?_
  cases hreply
  exact related_pure ⟨rfl, rfl⟩

lemma unheard_publish :
    Related (SameAnswer fun s t => s.unheard = t) s.publish s.unheard.publish := by
  refine s.unheard_handOver.bind_same fun result s' _ h' => ?_
  cases h'
  rcases result with (e | f) | summary
  · exact Related.after_say _ _ _ (related_pure ⟨rfl, rfl⟩)
  · exact related_pure ⟨rfl, rfl⟩
  · exact Related.after_say _ _ _ (related_pure ⟨rfl, rfl⟩)

lemma unheard_countFrame (d : Duration) :
    Related (SameAnswer fun s t => s.unheard = t) (s.countFrame d) (s.unheard.countFrame d) := by
  have hcadence : s.unheard.cadence = s.cadence := rfl
  simp only [countFrame, hcadence]
  split_ifs
  · exact unheard_publish { s with cadence := (s.cadence.tick d).2 }
  · exact related_pure ⟨rfl, rfl⟩

lemma unheard_onFrame (now : Timestamp) :
    Related (SameAnswer fun s t => s.unheard = t) (s.onFrame now) (s.unheard.onFrame now) := by
  have hprofiler : s.unheard.profiler = s.profiler := rfl
  simp only [onFrame, hprofiler]
  refine (Related.of_eq rfl).bind fun profiler _ h => ?_
  cases h
  cases s.profiler.gap? now with
  | none => exact related_pure ⟨rfl, rfl⟩
  | some d =>
    dsimp only
    split_ifs
    · exact unheard_countFrame { s with profiler } d
    · exact related_pure ⟨rfl, rfl⟩

lemma unheard_refresh :
    Related (SameAnswer fun s t => s.unheard = t) s.refresh s.unheard.refresh := by
  refine (unheard_publish { s with cadence := s.cadence.restart }).bind_same
    fun result s' _ h' => ?_
  cases h'
  exact related_pure ⟨rfl, rfl⟩

/-- **Listening in changes nothing**: each operation is answered alike and leaves the same. -/
theorem unheard_perform (op : Operation ρ) :
    Related (SameAnswer fun s t => s.unheard = t) (s.perform op.overheard)
      (s.unheard.perform op) := by
  cases op with
  | event e =>
    cases e with
    | frame now =>
      exact (s.unheard_onFrame now).bind_same fun _ _ _ h' => related_pure ⟨rfl, h'⟩
    | refresh => exact s.unheard_refresh.bind_same fun _ _ _ h' => related_pure ⟨rfl, h'⟩
    | reset => exact s.unheard_reset.bind fun _ _ h' => related_pure ⟨rfl, h'⟩
  | call c =>
    refine (Related.of_eq (x := s.profiler.call c) rfl).bind fun profiler _ h => ?_
    cases h
    exact related_pure ⟨rfl, rfl⟩
  | handOver => exact s.unheard_handOver.bind_same fun _ _ _ h' => related_pure ⟨rfl, h'⟩
  | adjust f => exact related_pure ⟨rfl, rfl⟩

end Unheard

/-- So a whole run is the run before the receiver itself. -/
theorem unheard_performAll [Receiver ρ] (s : Session (Overheard ρ)) (ops : List (Operation ρ)) :
    Related (SameAnswer fun s t => s.unheard = t) (s.performAll (ops.map Operation.overheard))
      (s.unheard.performAll ops) := by
  rw [performAll, inTurn_map]
  refine Related.inTurn (fun s _ op h => ?_) ops rfl
  cases h
  exact s.unheard_perform op

end Session

end FramePacing
