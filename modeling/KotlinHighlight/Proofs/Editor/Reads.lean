import KotlinHighlight.Proofs.Cache.Hits
import KotlinHighlight.Proofs.Editor.Strokes

/-! # How often a painter reads its document

Whenever a painter reads its document it asks its cache for the plain text, and new settings go to the
cache as well. So the cache of a painter is what these requests lead to from a new cache on, since the
painter was made (`run_served`). A full repaint reads the document for its first block only: for each
other block, and for any block that is painted later, the reading is found to be current
(`UpToDate.isStale_eq_false`). Hence a full repaint asks the cache once (`repaint_asks_once`).
-/

namespace KotlinHighlight.Editor

open Cache (Request Outdated)

/-- What some strokes request of the cache: the plain text for each one that reads the document. -/
def requestsOf (document : Document) (strokes : List Stroke) : List Request :=
  strokes.flatMap fun stroke =>
    if stroke.reads document then [.ask (some document.plainText)] else []

/-- There are as many requests as strokes that read the document, all for the same text. -/
theorem requestsOf_eq (document : Document) (strokes : List Stroke) :
    requestsOf document strokes =
      List.replicate ((strokes.map (·.reads document)).count true)
        (.ask (some document.plainText)) := by
  induction strokes with
  | nil => rfl
  | cons stroke strokes ih =>
    rw [requestsOf, List.flatMap_cons, List.map_cons, List.count_cons]
    refine (congrArg (_ ++ ·) ih).trans ?_
    cases stroke.reads document with
    | false => rfl
    | true => rfl

/-- Strokes that do not read request nothing. -/
theorem requestsOf_of_unread {document : Document} {strokes : List Stroke} {count : Nat}
    (unread : strokes.map (·.reads document) = List.replicate count false) :
    requestsOf document strokes = [] := by
  rw [requestsOf_eq, unread, List.count_replicate]
  rfl

/-- Strokes of which only the first one reads request the plain text once. -/
theorem requestsOf_of_read_first {document : Document} {strokes : List Stroke} {count : Nat}
    (first : strokes.map (·.reads document) = true :: List.replicate count false) :
    requestsOf document strokes = [.ask (some document.plainText)] := by
  rw [requestsOf_eq, first, List.count_cons_self, List.count_replicate]
  rfl

/-- What an action requests of the cache before it paints. -/
def Action.changes : Action → List Request
  | .setTheme theme => [.configure theme none]
  | .setContainment mode => [.configure none mode]
  | .construct _ _ _ | .create _ _ _ | .replace _ | .edit _ _ | .paint _ | .rehighlight | .tick
  | .detach => []

def Action.repaintsAll : Action → Bool
  | .rehighlight | .setTheme _ | .setContainment _ => true
  | .construct _ _ _ | .create _ _ _ | .replace _ | .edit _ _ | .paint _ | .tick | .detach => false

def Action.makesPainter : Action → Bool
  | .construct _ _ _ | .create _ _ _ => true
  | _ => false

theorem Action.isAsk_of_mem_changes {action : Action} {request : Request}
    (member : request ∈ action.changes) : request.isAsk = false := by
  cases action with
  | setTheme | setContainment =>
    obtain rfl := List.mem_singleton.mp member
    rfl
  | construct | create | replace | edit | paint | rehighlight | tick | detach =>
    exact absurd member List.not_mem_nil

namespace Painter

section Served

variable (painter : Painter) (screen : Screen) (document : Document)

/-- To paint a block asks the cache if the painter reads the document for it. -/
theorem cache_paint (block : Nat) : (painter.paint screen document block).2.1.cache =
    painter.cache.after (requestsOf document [⟨painter, block⟩]) := by
  rw [(painter.paint_eq screen document block).2, requestsOf, List.flatMap_singleton, Stroke.reads]
  change (painter.freshen document block).cache = _
  rw [freshen]
  split
  · exact painter.cache_refresh document
  · rfl

theorem cache_paintAll (blocks : List Nat) : (painter.paintAll screen document blocks).2.1.cache =
    painter.cache.after (requestsOf document (painter.strokes screen document blocks)) := by
  induction blocks generalizing painter with
  | nil => rfl
  | cons block blocks ih =>
    have first := painter.cache_paint screen document block
    have rest := ih (painter.paint screen document block).2.1
    rw [first, ← Cache.after_append] at rest
    rw [strokes, requestsOf, List.flatMap_cons]
    rw [requestsOf, List.flatMap_singleton] at rest
    exact rest

/-- New settings go to the cache, and a fault leaves it as it was. -/
theorem cache_configure (theme : Option Theme) (mode : Option String) :
    match painter.configure theme mode with
    | .ok configured => configured.cache = painter.cache.serve (.configure theme mode)
    | .error _ => painter.cache = painter.cache.serve (.configure theme mode) := by
  rw [configure, Cache.serve]
  cases painter.cache.configure theme mode with
  | ok cache => rfl
  | error fault => rfl

end Served

/-- Whether the cache of a painter is what some requests lead to from a new cache on. -/
def Served (requests : List Request) (painter : Painter) (_queue : Nat) : Prop :=
  ∃ theme mode, painter.cache = Cache.after { theme, mode } requests

/-- A painter that is up to date once it comes to a block is so after it has painted it. -/
theorem upToDate_paint {painter : Painter} {screen : Screen} {document : Document} {block : Nat}
    (fresh : (painter.freshen document block).UpToDate screen document) :
    (painter.paint screen document block).2.1.UpToDate screen document := by
  rw [(painter.paint_eq screen document block).2]
  exact fresh.paintAsRead document block _

namespace UpToDate

variable {painter : Painter} {screen : Screen} {document : Document}
  (current : painter.UpToDate screen document) (basic : document.IsBasic)
include current basic

/-- Where all characters are of one unit each block stands in the reading where the document has it. -/
theorem isStale_eq_false (block : Nat) : painter.isStale document (document.position block)
    (document.blocks.getD block []) = false := by
  have stands : (document.plainText.drop (document.position block)).take
      (document.blocks.getD block []).length = plainForm (document.blocks.getD block []) := by
    by_cases valid : block < document.blocks.length
    · rw [Document.plainText_split (Document.getElem?_blocks valid), basic.position_eq,
        Document.start_eq, List.append_assoc, List.drop_left, ← length_plainForm, List.take_left]
    · rw [List.getD_eq_getElem?_getD, List.getElem?_eq_none (Nat.le_of_not_lt valid)]
      rfl
  rw [isStale, current.reading]
  dsimp only
  rw [current.trusted, stands, bne_self_eq_false, bne_self_eq_false]
  rfl

/-- A painter that is up to date reads the document for no block. -/
theorem map_reads (blocks : List Nat) :
    (painter.strokes screen document blocks).map (·.reads document) =
      List.replicate blocks.length false := by
  induction blocks generalizing painter with
  | nil => rfl
  | cons block blocks ih =>
    rw [strokes, List.map_cons, Stroke.reads, current.isStale_eq_false basic block]
    exact congrArg (false :: ·) (ih (upToDate_paint (freshen_upToDate current block).1))

theorem cache_paintAll (blocks : List Nat) :
    (painter.paintAll screen document blocks).2.1.cache = painter.cache := by
  rw [Painter.cache_paintAll, requestsOf_of_unread (current.map_reads basic blocks)]
  rfl

end UpToDate

/-- A painter that distrusts its reading reads the document for the first of some blocks and for no
other. -/
theorem map_reads_distrust {painter : Painter} {screen : Screen} (coherent : painter.Coherent screen)
    {document : Document} (basic : document.IsBasic) (block : Nat) (blocks : List Nat) :
    (painter.distrust.strokes screen document (block :: blocks)).map (·.reads document) =
      true :: List.replicate blocks.length false := by
  have current := upToDate_paint (freshen_distrust coherent document block).1
  rw [strokes, List.map_cons, Stroke.reads, isStale_distrust]
  exact congrArg (true :: ·) (current.map_reads basic blocks)

end Painter

namespace Session

open Painter (Served)

/-- What an action requests of the cache of the painter. -/
def requests (surroundings : Surroundings) (session : Session) (action : Action) : List Request :=
  action.changes ++ requestsOf session.document (session.strokes surroundings action)

def cache (session : Session) : Option Cache :=
  session.painter.map (·.cache)

theorem cache_of_known {session : Session} {painter : Painter}
    (known : session.painter = some painter) : session.cache = some painter.cache := by
  rw [cache, known, Option.map_some]

section Cache

variable (session : Session) (screen : Screen) (painter : Painter)

theorem cache_paintWith (blocks : List Nat) : (session.paintWith screen painter blocks).1.cache =
    some (painter.cache.after
      (requestsOf session.document (session.strokesWith screen painter blocks))) := by
  rw [paintWith, strokesWith]
  split
  · exact congrArg some (painter.cache_paintAll screen session.document blocks)
  · rfl

theorem cache_repaintWith : (session.repaintWith screen painter).1.cache =
    some (painter.cache.after
      (requestsOf session.document (session.strokesOfRepaint screen painter))) := by
  rw [repaintWith]
  split
  · exact session.cache_paintWith screen painter.distrust _
  · rename_i detached
    rw [strokesOfRepaint_of_detached detached]
    rfl

theorem cache_reconfigure (known : session.cache = some painter.cache) (theme : Option Theme)
    (mode : Option String) : (session.reconfigure screen painter theme mode).1.cache =
      some (painter.cache.after (.configure theme mode :: requestsOf session.document
        (session.strokesOfChange screen (painter.configure theme mode)))) := by
  have served := painter.cache_configure theme mode
  rw [reconfigure]
  cases done : painter.configure theme mode with
  | ok configured =>
    rw [done] at served
    refine (session.cache_repaintWith screen configured).trans ?_
    rw [served]
    rfl
  | error fault =>
    rw [done] at served
    exact known.trans (congrArg some served)

theorem cache_runRepaint : (session.runRepaint screen).1.cache =
    session.cache.map (·.after (requestsOf session.document (session.strokesOfQueued screen))) := by
  rw [runRepaint, strokesOfQueued, cache, cache]
  cases known : session.painter with
  | none => exact congrArg (Option.map _) known
  | some painter =>
    dsimp only
    split
    · exact session.cache_repaintWith screen _
    · rename_i detached
      rw [strokesOfRepaint_of_detached detached]
      rfl

theorem cache_runRepaints (count : Nat) : (session.runRepaints screen count).1.cache =
    session.cache.map (·.after
      (requestsOf session.document (session.strokesOfRepaints screen count))) := by
  induction count generalizing session with
  | zero => exact Option.map_id'.symm
  | succ count ih =>
    have rest := ih (session.runRepaint screen).1
    rw [cache_runRepaint, Option.map_map, (session.runRepaint_leaves screen).1] at rest
    rw [runRepaints, strokesOfRepaints, requestsOf, List.flatMap_append]
    refine rest.trans (congrArg (Option.map · session.cache) (funext fun cache => ?_))
    exact (cache.after_append _ _).symm

theorem cache_withPainter {use : Painter → Session × Report} {strokes : Painter → List Stroke}
    {changes : List Request}
    (served : ∀ painter, session.painter = some painter → (use painter).1.cache =
      some (painter.cache.after (changes ++ requestsOf session.document (strokes painter)))) :
    (session.withPainter use).1.cache = session.cache.map
      (·.after (changes ++ requestsOf session.document (session.painter.elim [] strokes))) := by
  rw [withPainter, cache, cache]
  cases known : session.painter with
  | none => exact congrArg (Option.map _) known
  | some painter => exact served painter known

end Cache

/-- Unless an action makes a new painter, the cache after it is what the requests of the action lead
to. -/
theorem cache_step (surroundings : Surroundings) (session : Session) {action : Action}
    (same : ¬(action.makesPainter = true ∧ (session.step surroundings action).2.fault = none)) :
    (session.step surroundings action).1.cache =
      session.cache.map (·.after (session.requests surroundings action)) := by
  have unchanged : session.cache = session.cache.map (·.after []) :=
    Option.map_id'.symm
  have refused : ∀ {made : Except Fault (Painter × Effects)},
      ¬(session.start made).2.fault = none → (session.start made).1.cache = session.cache := by
    intro made faulty
    cases made with
    | ok made => exact absurd rfl faulty
    | error fault => rfl
  cases action with
  | construct | create =>
    exact (refused fun fine => same ⟨rfl, fine⟩).trans unchanged
  | replace | edit | detach => exact unchanged
  | paint blocks =>
    exact session.cache_withPainter fun painter _ => session.cache_paintWith _ painter blocks
  | rehighlight => exact session.cache_withPainter fun painter _ => session.cache_repaintWith _ painter
  | setTheme theme =>
    refine session.cache_withPainter fun painter known => ?_
    have before := cache_of_known known
    exact session.cache_reconfigure _ painter.forgetFormats before theme none
  | setContainment mode =>
    refine session.cache_withPainter fun painter known => ?_
    exact session.cache_reconfigure _ painter (cache_of_known known) none mode
  | tick => exact ({ session with queue := 0 } : Session).cache_runRepaints _ session.queue

/-- What was requested of the cache of the painter since the painter was made, after an action. -/
def requestsAfter (surroundings : Surroundings) (session : Session) (earlier : List Request)
    (action : Action) : List Request :=
  if action.makesPainter = true ∧ (session.step surroundings action).2.fault = none then []
  else earlier ++ session.requests surroundings action

/-- What was requested of the cache of the painter since the painter was made, after some actions. -/
def requestsOfRun (surroundings : Surroundings) (session : Session) (earlier : List Request) :
    List Action → List Request
  | [] => earlier
  | action :: actions =>
    (session.step surroundings action).1.requestsOfRun surroundings
      (session.requestsAfter surroundings earlier action) actions

/-- An action that makes a new painter gives it a new cache. -/
theorem served_of_makesPainter (surroundings : Surroundings) (session : Session) {action : Action}
    (makes : action.makesPainter = true)
    (fine : (session.step surroundings action).2.fault = none) :
    (session.step surroundings action).1.Holds (Served []) 0 := by
  have started : ∀ {theme : Option Theme} {mode : Option String} {debug : Bool},
      (session.start (Painter.new theme mode debug)).2.fault = none →
        (session.start (Painter.new theme mode debug)).1.Holds (Served []) 0 := by
    intro theme mode debug fine
    cases new : Painter.new theme mode debug with
    | error fault =>
      rw [new] at fine
      exact absurd fine (Option.some_ne_none fault)
    | ok made =>
      rintro painter ⟨⟩
      obtain ⟨theme, mode, same⟩ := Painter.eq_of_new new
      exact ⟨theme, mode, congrArg Painter.cache same⟩
  cases action with
  | construct | create => exact started fine
  | replace | edit | paint | rehighlight | setTheme | setContainment | tick | detach =>
    exact absurd makes Bool.false_ne_true

theorem step_served {surroundings : Surroundings} {session : Session} {earlier : List Request}
    (served : session.Holds (Served earlier) 0) (action : Action) :
    (session.step surroundings action).1.Holds
      (Served (session.requestsAfter surroundings earlier action)) 0 := by
  rw [requestsAfter]
  split
  · rename_i new
    exact session.served_of_makesPainter surroundings new.1 new.2
  · rename_i same
    intro next known
    have reached := (cache_of_known known).symm.trans (cache_step surroundings session same)
    cases before : session.painter with
    | none =>
      rw [cache, before] at reached
      exact absurd reached (Option.some_ne_none next.cache)
    | some painter =>
      obtain ⟨theme, mode, start⟩ := served painter before
      rw [cache_of_known before, Option.map_some, Option.some_inj, start,
        ← Cache.after_append] at reached
      exact ⟨theme, mode, reached⟩

/-- The cache of the painter is what was requested of it since the painter was made. -/
theorem run_served {surroundings : Surroundings} {session : Session} {earlier : List Request}
    (served : session.Holds (Served earlier) 0) (actions : List Action) :
    (session.run surroundings actions).1.Holds
      (Served (session.requestsOfRun surroundings earlier actions)) 0 := by
  induction actions generalizing session earlier with
  | nil => exact served
  | cons action actions ih => exact ih (step_served served action)

/-- A full repaint with new settings has them to go on with, unless they are refused. -/
theorem exists_ready_of_reconfigure (session : Session) {screen : Screen} {painter : Painter}
    (agrees : painter.formats.Agrees screen) {theme : Option Theme} {mode : Option String}
    (fine : (session.reconfigure screen painter theme mode).2.fault = none) :
    ∃ ready : Painter, ready.Coherent screen ∧
      ready.cache = painter.cache.after [.configure theme mode] ∧
      session.reconfigure screen painter theme mode = session.repaintWith screen ready ∧
      session.strokesOfChange screen (painter.configure theme mode) =
        session.strokesOfRepaint screen ready := by
  have served := painter.cache_configure theme mode
  rw [reconfigure] at fine ⊢
  cases done : painter.configure theme mode with
  | error fault =>
    rw [done] at fine
    exact absurd fine (Option.some_ne_none fault)
  | ok configured =>
    rw [done] at served
    exact ⟨configured, Painter.coherent_of_configure agrees done, served, rfl, rfl⟩

/-- What repaints everything is the full repaint of a painter with the settings as they are then. -/
theorem exists_ready_of_repaintsAll {surroundings : Surroundings} {session : Session}
    {painter : Painter} (known : session.painter = some painter)
    (coherent : painter.Coherent surroundings.screen) {action : Action}
    (repaints : action.repaintsAll = true)
    (fine : (session.step surroundings action).2.fault = none) :
    ∃ ready : Painter, ready.Coherent surroundings.screen ∧
      ready.cache = painter.cache.after action.changes ∧
      session.step surroundings action = session.repaintWith surroundings.screen ready ∧
      session.strokes surroundings action =
        session.strokesOfRepaint surroundings.screen ready := by
  cases action with
  | rehighlight =>
    rw [step, strokes, withPainter, known]
    exact ⟨painter, coherent, rfl, rfl, rfl⟩
  | setTheme theme =>
    rw [step, withPainter, known] at fine ⊢
    rw [strokes, known]
    exact session.exists_ready_of_reconfigure (FormatMemo.agrees_nil _) fine
  | setContainment mode =>
    rw [step, withPainter, known] at fine ⊢
    rw [strokes, known]
    exact session.exists_ready_of_reconfigure coherent.formats fine
  | construct | create | replace | edit | paint | tick | detach =>
    exact absurd repaints Bool.false_ne_true

/-- Painting blocks with a painter that is up to date does not change its cache. -/
theorem run_paints (surroundings : Surroundings) {session : Session} {painter : Painter}
    (known : session.painter = some painter) (attached : session.attached = true)
    (basic : session.document.IsBasic)
    (current : painter.UpToDate surroundings.screen session.document) (paints : List (List Nat)) :
    ∃ last, (session.run surroundings (paints.map .paint)).1.painter = some last ∧
      last.cache = painter.cache := by
  induction paints generalizing session painter with
  | nil => exact ⟨painter, known, rfl⟩
  | cons blocks paints ih =>
    obtain ⟨next, document, still, -, -⟩ :=
      paintWith_attached attached surroundings.screen painter blocks
    have painted : session.step surroundings (.paint blocks) =
        session.paintWith surroundings.screen painter blocks := by
      rw [step, withPainter, known]
    have later := (Painter.paintAll_upToDate current current (.refl painter) blocks).2
    have unasked := current.cache_paintAll basic blocks
    rw [← painted] at next document still
    rw [← document] at basic
    obtain ⟨last, reached, same⟩ := ih next still basic (by rw [document]; exact later)
    exact ⟨last, reached, same.trans unasked⟩

section Repaint

variable {session : Session} {screen : Screen} {painter : Painter} (coherent : painter.Coherent screen)
  (attached : session.attached = true) (basic : session.document.IsBasic)
  (nonempty : session.document.blocks ≠ [])
include coherent attached basic nonempty

/-- A full repaint reads the document for its first block and for no other. -/
theorem map_reads_strokesOfRepaint :
    (session.strokesOfRepaint screen painter).map (·.reads session.document) =
      true :: List.replicate (session.document.blocks.length - 1) false := by
  obtain ⟨count, length⟩ : ∃ count, session.document.blocks.length = count + 1 :=
    Nat.exists_eq_succ_of_ne_zero fun zero => nonempty (List.length_eq_zero_iff.mp zero)
  rw [strokesOfRepaint, strokesWith, if_pos attached, length, List.range_succ_eq_map,
    Painter.map_reads_distrust coherent basic, List.length_map, List.length_range,
    Nat.add_sub_cancel]

/-- So it asks the cache once. -/
theorem repaintWith_asks_once : ∃ next : Painter,
    (session.repaintWith screen painter).1.painter = some next ∧
      next.cache = (painter.cache.ask (some session.document.plainText)).2 ∧
      next.UpToDate screen session.document := by
  obtain ⟨-, -, -, -, next, made, -, current⟩ := repaintWith_attached attached coherent
  refine ⟨next, made, ?_, current nonempty⟩
  have painted := session.cache_repaintWith screen painter
  rw [cache_of_known made, requestsOf_of_read_first
    (map_reads_strokesOfRepaint coherent attached basic nonempty)] at painted
  exact Option.some.inj painted

end Repaint

/-- Take any session with a painter and its document, which has at least one block and no character
beyond U+FFFF. A full repaint, with new settings or without, reads the document for its first block only
and asks the cache once. The answer is a miss exactly if the painter asked for no text yet, the plain text
is not the last one that it asked for, or it was given new settings since. After that, blocks are painted
in any order without asking the cache at all. -/
theorem repaint_asks_once (surroundings : Surroundings) (actions : List Action)
    {session : Session} (reached : (Session.run surroundings {} actions).1 = session)
    {painter : Painter} (known : session.painter = some painter)
    (attached : session.attached = true) (basic : session.document.IsBasic)
    (nonempty : session.document.blocks ≠ []) {action : Action}
    (repaints : action.repaintsAll = true)
    (fine : (session.step surroundings action).2.fault = none) :
    let document := session.document
    let earlier := requestsOfRun surroundings {} [] actions ++ action.changes
    let after := (session.step surroundings action).1
    (session.strokes surroundings action).map (·.reads document) =
        true :: List.replicate (document.blocks.length - 1) false ∧
      ∃ next, after.painter = some next ∧
        next.cache.hits + next.cache.misses = painter.cache.hits + painter.cache.misses + 1 ∧
        (next.cache.misses = painter.cache.misses + 1 ↔ Outdated document.plainText earlier) ∧
        (next.cache.misses = painter.cache.misses ↔ ¬Outdated document.plainText earlier) ∧
        ∀ paints : List (List Nat), ∃ last,
          (after.run surroundings (paints.map .paint)).1.painter = some last ∧
            last.cache = next.cache := by
  intro document earlier after
  have coherent : session.Coherent surroundings.screen :=
    reached ▸ run_coherent surroundings (coherent_initial _) actions
  have served : session.Holds (Served (requestsOfRun surroundings {} [] actions)) 0 :=
    reached ▸ run_served (holds_initial _) actions
  obtain ⟨ready, trusted, settled, stepped, strokes⟩ :=
    exists_ready_of_repaintsAll known (coherent painter known) repaints fine
  obtain ⟨next, made, asked, current⟩ := repaintWith_asks_once trusted attached basic nonempty
  obtain ⟨-, unedited, still, -⟩ := repaintWith_attached attached trusted
  rw [← stepped] at made unedited still
  refine ⟨?_, next, made, ?_⟩
  · rw [strokes]
    exact map_reads_strokesOfRepaint trusted attached basic nonempty
  have hit : (ready.cache.ask (some document.plainText)).1.hit = true ↔
      ¬Outdated document.plainText earlier := by
    obtain ⟨theme, mode, start⟩ := served painter known
    rw [settled, start, ← Cache.after_append]
    exact Cache.hit_ask_after_iff rfl
  have unasked : ∀ request ∈ action.changes, request.isAsk = false :=
    fun _ => Action.isAsk_of_mem_changes
  obtain ⟨hits, misses⟩ := painter.cache.counts_after_of_unasked unasked
  rw [← settled] at hits misses
  have counted := ready.cache.hits_add_misses_serve (.ask (some document.plainText))
  rw [Cache.serve, ← asked, hits, misses] at counted
  have missed := ready.cache.misses_ask (some document.plainText)
  rw [hit, not_not, ← asked, misses] at missed
  have paints := run_paints surroundings made still (by rw [unedited]; exact basic)
    (by rw [unedited]; exact current)
  exact ⟨counted, missed.1, missed.2, paints⟩

/-- A document with a no-break space and a line separator, which its plain text has no more, after a
theme was set and a block was edited. -/
theorem repaint_asks_once_of_separators :
    let surroundings : Surroundings := ⟨[], ⟨fun _ => true⟩⟩
    let actions : List Action := [.construct none (some "scan") false,
      .replace [['/', '*'], ['\u00a0'], ['\u2028']], .paint [1], .setTheme none, .edit 0 ['1']]
    let session := (Session.run surroundings {} actions).1
    let document := session.document
    let after := (session.step surroundings .rehighlight).1
    let earlier := requestsOfRun surroundings {} [] actions ++ Action.changes .rehighlight
    session.attached = true ∧ document.IsBasic ∧ document.blocks ≠ [] ∧
      ∃ painter, session.painter = some painter ∧
        (session.strokes surroundings .rehighlight).map (·.reads document) =
          [true, false, false] ∧
        ∃ next, after.painter = some next ∧
          next.cache.hits + next.cache.misses = painter.cache.hits + painter.cache.misses + 1 ∧
          (next.cache.misses = painter.cache.misses + 1 ↔ Outdated document.plainText earlier) ∧
          (next.cache.misses = painter.cache.misses ↔ ¬Outdated document.plainText earlier) ∧
          ∀ paints : List (List Nat), ∃ last,
            (after.run surroundings (paints.map .paint)).1.painter = some last ∧
              last.cache = next.cache := by
  intro surroundings actions session document after earlier
  have shape : session.attached = true ∧ session.painter.isSome = true ∧
      session.document = ⟨[['1'], ['\u00a0'], ['\u2028']]⟩ ∧
      (session.step surroundings .rehighlight).2.fault.isNone = true := by
    decide +kernel
  have reached : (Session.run surroundings {} actions).1 = session := rfl
  clear_value session
  obtain ⟨attached, constructed, shown, unrefused⟩ := shape
  obtain ⟨painter, known⟩ := Option.isSome_iff_exists.mp constructed
  have basic : session.document.IsBasic := by
    rw [shown]
    decide
  have nonempty : session.document.blocks ≠ [] := by
    rw [shown]
    exact List.cons_ne_nil _ _
  obtain ⟨reads, once⟩ := repaint_asks_once surroundings actions reached known attached basic
    nonempty rfl (Option.isNone_iff_eq_none.mp unrefused)
  refine ⟨attached, basic, nonempty, painter, known, reads.trans ?_, once⟩
  rw [shown]
  rfl

end Session

end KotlinHighlight.Editor
