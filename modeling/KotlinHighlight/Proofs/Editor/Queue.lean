import KotlinHighlight.Proofs.Editor.Repaints

/-! # The queue of repaints

A painter takes a repaint to be pending just if one is queued, and it never asks for a second one
(`kept_queuedOnce`). A repaint can find a text that is new once more and ask for another one. That
one finds the text remembered and asks for nothing, so that two runs of the queue leave it empty
(`repaints_drain`).
-/

namespace KotlinHighlight.Editor

namespace Painter

/-- Whether no more than one repaint is queued, and one is just if the painter takes it to be
pending. -/
structure QueuedOnce (painter : Painter) (queue : Nat) : Prop where
  once : queue ≤ 1
  pending : painter.repaintPending = true ↔ queue = 1

/-- A reading asks for a repaint only if none is pending. -/
theorem QueuedOnce.refresh {painter : Painter} {queue : Nat} (queued : painter.QueuedOnce queue)
    (document : Document) : (painter.refresh document).1.QueuedOnce
      (queue + (painter.refresh document).2.repaintsAsked) := by
  rw [Painter.refresh]
  dsimp only
  split
  · exact ⟨queued.once, queued.pending⟩
  · cases pending : painter.repaintPending with
    | true =>
      have one := queued.pending.mp pending
      rw [Bool.not_true, Bool.and_false]
      exact ⟨queued.once, by simp [one]⟩
    | false =>
      have empty : queue = 0 := by
        have notOne := mt queued.pending.mpr (Bool.eq_false_iff.mp pending)
        have once := queued.once
        omega
      rw [Bool.not_false, Bool.and_true, Bool.false_or, empty, Nat.zero_add]
      generalize (painter.edition.isSome &&
        (painter.cache.ask (some document.plainText)).2.mode == .heuristic) = asks
      cases asks with
      | true => exact ⟨Nat.le_refl 1, iff_of_true rfl rfl⟩
      | false => exact ⟨Nat.zero_le 1, iff_of_false Bool.false_ne_true Nat.zero_ne_one⟩

/-- No step of a painter queues a repaint twice or loses one. -/
theorem kept_queuedOnce (screen : Screen) : Kept screen QueuedOnce where
  new made := by
    obtain ⟨theme, mode, same⟩ := eq_of_new made
    rw [same]
    exact ⟨Nat.zero_le 1, iff_of_false Bool.false_ne_true Nat.zero_ne_one⟩
  refresh queued document := queued.refresh document
  paintAsRead queued _ _ _ := ⟨queued.once, queued.pending⟩
  distrust queued := ⟨queued.once, queued.pending⟩
  forgetFormats queued := ⟨queued.once, queued.pending⟩
  configure queued done := by
    obtain ⟨cache, -, rfl⟩ := eq_of_configure done
    exact ⟨queued.once, queued.pending⟩
  dequeue {_ queue} queued := by
    have empty : queue = 0 := by
      have once := queued.once
      omega
    exact ⟨by omega, by simp [empty]⟩

end Painter

namespace Session

variable {surroundings : Surroundings} {session : Session}

section Tick

variable {painter : Painter} (known : session.painter = some painter)
  (coherent : painter.Coherent surroundings.screen)
include known coherent

/-- To run one repaint leaves a painter that remembers the text of its document. It asks for nothing if
the painter did so before, or if it has no document. -/
theorem runRepaint_remembers :
    let after := (session.runRepaint surroundings.screen).1
    ((session.attached = true → session.document.blocks ≠ [] →
        painter.cache.text = some session.document.plainText) → after.queue = session.queue) ∧
      ∃ next, after.painter = some next ∧ (after.attached = true → after.document.blocks ≠ [] →
        next.cache.text = some after.document.plainText) := by
  intro after
  by_cases attached : session.attached = true
  · obtain ⟨-, queue, next, -, -, shows⟩ := runRepaint_shows known attached coherent
    refine ⟨fun cached => queue (cached attached), next, shows.known, ?_⟩
    exact fun _ filled => (shows.current filled).cached
  · have idle : after = { session with painter := some { painter with repaintPending := false } } := by
      change (session.runRepaint surroundings.screen).1 = _
      rw [runRepaint, known]
      dsimp only
      rw [if_neg attached]
    rw [idle]
    exact ⟨fun _ => rfl, _, rfl, fun attached' => absurd attached' attached⟩

/-- A run of a queue with one repaint. -/
theorem step_tick_remembers (one : session.queue = 1) :
    let after := (session.step surroundings .tick).1
    ((session.attached = true → session.document.blocks ≠ [] →
        painter.cache.text = some session.document.plainText) → after.queue = 0) ∧
      ∃ next, after.painter = some next ∧ (after.attached = true → after.document.blocks ≠ [] →
        next.cache.text = some after.document.plainText) := by
  have whole : (session.step surroundings .tick).1 =
      (({ session with queue := 0 } : Session).runRepaint surroundings.screen).1 := by
    rw [step, one]
    rfl
  have known' : ({ session with queue := 0 } : Session).painter = some painter := known
  rw [whole]
  exact runRepaint_remembers known' coherent

end Tick

/-- Take any session. Its painter takes a repaint to be pending just if exactly one is queued, and no more
than one is. Two runs of the queue, with nothing in between, run no more than two repaints and leave the
queue empty. -/
theorem repaints_drain (surroundings : Surroundings) {actions : List Action} {session : Session}
    (reached : (Session.run surroundings {} actions).1 = session) {painter : Painter}
    (known : session.painter = some painter) :
    let first := (session.step surroundings .tick).1
    let second := (first.step surroundings .tick).1
    (painter.repaintPending = true ↔ session.queue = 1) ∧ session.queue ≤ 1 ∧
      session.queue + first.queue ≤ 2 ∧ second.queue = 0 := by
  intro first second
  have coherent : session.Coherent surroundings.screen :=
    reached ▸ run_coherent surroundings (coherent_initial _) actions
  have queued : session.Holds Painter.QueuedOnce 0 :=
    reached ▸ run_holds (Painter.kept_queuedOnce _) (holds_initial _) actions
  obtain ⟨once, pending⟩ := queued painter known
  refine ⟨pending, once, ?_⟩
  rcases Nat.le_one_iff_eq_zero_or_eq_one.mp once with empty | one
  · have same : first = session := congrArg Prod.fst (step_tick_of_empty surroundings empty)
    have same' : second = session := by
      change (first.step surroundings .tick).1 = session
      rw [same]
      exact same
    rw [same, same']
    exact ⟨by omega, empty⟩
  · have coherent' : first.Coherent surroundings.screen := step_coherent surroundings coherent .tick
    have queued' : first.Holds Painter.QueuedOnce 0 :=
      step_holds (Painter.kept_queuedOnce _) queued .tick
    obtain ⟨-, next, known', remembers⟩ :=
      step_tick_remembers known (coherent painter known) one
    have once' : first.queue ≤ 1 := (queued' next known').once
    refine ⟨by omega, ?_⟩
    rcases Nat.le_one_iff_eq_zero_or_eq_one.mp once' with empty | one'
    · exact (congrArg (·.1.queue) (step_tick_of_empty surroundings empty)).trans empty
    · exact (step_tick_remembers known' (coherent' next known') one').1 remembers

/-- An edit between the request for a repaint and the repaint, which finds a new text and asks for
another one. -/
theorem repaints_drain_of_late_edit :
    let surroundings : Surroundings := ⟨[], ⟨fun _ => true⟩⟩
    let actions : List Action := [.construct none (some "heuristic") false,
      .replace [['/', '*'], ['1']], .rehighlight, .edit 1 ['*', '/'], .paint [1], .edit 1 ['2']]
    let session := (Session.run surroundings {} actions).1
    let first := (session.step surroundings .tick).1
    let second := (first.step surroundings .tick).1
    session.queue = 1 ∧ first.queue = 1 ∧
      ∃ painter, session.painter = some painter ∧
        (painter.repaintPending = true ↔ session.queue = 1) ∧ session.queue ≤ 1 ∧
          session.queue + first.queue ≤ 2 ∧ second.queue = 0 := by
  intro surroundings actions session first second
  have shape : session.queue = 1 ∧ first.queue = 1 ∧ session.painter.isSome = true := by
    decide +kernel
  have reached : (Session.run surroundings {} actions).1 = session := rfl
  clear_value session
  obtain ⟨waiting, again, constructed⟩ := shape
  obtain ⟨painter, known⟩ := Option.isSome_iff_exists.mp constructed
  exact ⟨waiting, again, painter, known, repaints_drain surroundings reached known⟩

end Session

end KotlinHighlight.Editor
