import KotlinHighlight.Proofs.Editor.Units

/-! # Full repaints forget the past

Whatever was done in a session, a full repaint shows the document as a new painter with the same
colors and the same mode would (`rehighlight_eq_fresh`). What a painter shows follows from its reading
of the document, and from nothing else that it keeps.
-/

namespace KotlinHighlight.Editor

namespace Painter

theorem map_block_paintingsOf (painter : Painter) (screen : Screen) (document : Document)
    (blocks : List Nat) :
    (painter.paintingsOf screen document blocks).map (·.block) = blocks := by
  rw [paintingsOf, List.map_map]
  exact List.map_id blocks

end Painter

namespace Session

/-- What a new painter with a theme and a mode records of a document in a full repaint. -/
def freshPaintings (surroundings : Surroundings) (theme : Option Theme) (mode : Containment)
    (document : Document) : List Painting :=
  let session := (Session.run surroundings {}
    [.construct theme (some mode.name) false, .replace document.blocks]).1
  (session.step surroundings .rehighlight).2.painted

/-- A painter that is up to date shows all blocks as a new one with its settings does. -/
theorem paintingsOf_eq_fresh {surroundings : Surroundings} {painter : Painter} {document : Document}
    (current : painter.UpToDate surroundings.screen document) :
    painter.paintingsOf surroundings.screen document (List.range document.blocks.length) =
      freshPaintings surroundings painter.cache.theme painter.cache.mode document := by
  obtain ⟨fresh, reached, coherent, shown⟩ := exists_constructed surroundings painter.cache.theme
    painter.cache.mode false document.blocks
  obtain ⟨painted, -⟩ := step_rehighlight surroundings (congrArg Session.painter reached) coherent
    (congrArg Session.attached reached)
  rw [congrArg Session.document reached] at painted
  obtain ⟨read, same⟩ := Painter.refresh_upToDate coherent document
  have alike : painter.indexFor document.plainText =
      (fresh.refresh document).1.indexFor document.plainText := by
    rw [Painter.indexFor, Painter.indexFor, same.mode, same.palette]
    exact congrArg (LineIndex.ofSpans document.plainText) (congrFun shown document).symm
  rw [Painter.paintingsOf, Painter.paintingOf_congr_index current read alike]
  exact painted.symm

/-- After any run of actions a full repaint records for every block what a new painter with the same
theme and the same mode records of the same document. -/
theorem rehighlight_eq_fresh (surroundings : Surroundings) (actions : List Action)
    {session : Session} (reached : (Session.run surroundings {} actions).1 = session)
    {painter : Painter} (known : session.painter = some painter)
    (attached : session.attached = true) :
    let painted := (session.step surroundings .rehighlight).2.painted
    painted = freshPaintings surroundings painter.cache.theme painter.cache.mode
        session.document ∧
      painted.map (·.block) = List.range session.document.blocks.length := by
  have coherent : session.Coherent surroundings.screen :=
    reached ▸ run_coherent surroundings (coherent_initial _) actions
  obtain ⟨painted, -⟩ := step_rehighlight surroundings known (coherent painter known) attached
  obtain ⟨read, same⟩ := Painter.refresh_upToDate (coherent painter known) session.document
  rw [painted, ← same.theme, ← same.mode]
  exact ⟨paintingsOf_eq_fresh read, Painter.map_block_paintingsOf _ _ _ _⟩

/-- A session in which a mode was refused, and the colors and the mode were changed between edits. -/
theorem rehighlight_eq_fresh_after_refusal :
    let surroundings : Surroundings := ⟨[], ⟨fun _ => true⟩⟩
    let theme : Theme := { Palette.default with number := "#0A0A0A" }.toTheme
    let actions : List Action := [.construct none (some "scan") false,
      .replace [['/', '*'], ['1']], .rehighlight, .setContainment (some "both"), .edit 0 ['2'],
      .paint [1, 0], .setTheme (some theme), .setContainment (some "heuristic"),
      .edit 1 ['😀'], .tick]
    let session := (Session.run surroundings {} actions).1
    session.attached = true ∧ ∃ painter, session.painter = some painter ∧
      let painted := (session.step surroundings .rehighlight).2.painted
      painted = freshPaintings surroundings painter.cache.theme painter.cache.mode
          session.document ∧
        painted.map (·.block) = List.range session.document.blocks.length := by
  intro surroundings theme actions session
  have shape : session.attached = true ∧ session.painter.isSome = true := by decide +kernel
  have reached : (Session.run surroundings {} actions).1 = session := rfl
  clear_value session
  obtain ⟨attached, constructed⟩ := shape
  obtain ⟨painter, known⟩ := Option.isSome_iff_exists.mp constructed
  exact ⟨attached, painter, known, rehighlight_eq_fresh surroundings actions reached known attached⟩

end Session

end KotlinHighlight.Editor
