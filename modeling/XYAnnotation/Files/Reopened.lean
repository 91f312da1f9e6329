import XYAnnotation.Files.OpenSave

namespace XYAnnotation

open Library

section Metadata

def ShapeS.metadata (shape : ShapeS) : String × String × ℤ := (shape.label, shape.description, shape.groupId)

/-- The text keeps its characters when it goes through a C string: it has no NUL in it and no byte
    order mark at its front. -/
def PlainText (text : String) : Prop := '\x00' ∉ text.toList ∧ text.toList.head? ≠ some '\uFEFF'

instance (text : String) : Decidable (PlainText text) := inferInstanceAs (Decidable (_ ∧ _))

theorem dropMark_length (cs : List Char) : (dropMark cs).length ≤ cs.length := by
  unfold dropMark
  split <;> simp

theorem dropMark_eq_iff (cs : List Char) : dropMark cs = cs ↔ cs.head? ≠ some '\uFEFF' := by
  unfold dropMark
  split
  · rename_i rest
    have shorter : rest ≠ '\uFEFF' :: rest := fun same => by
      have lengths := congrArg List.length same
      simp at lengths
    simp [shorter]
  · rename_i other
    refine iff_of_true rfl ?_
    intro mark
    obtain ⟨rest, rfl⟩ := List.head?_eq_some_iff.mp mark
    exact other rest rfl

theorem fromCString_eq_iff (text : String) : fromCString text = text ↔ PlainText text := by
  have lists : fromCString text = text ↔ dropMark (text.toList.takeWhile (· ≠ '\x00')) = text.toList := by
    rw [← String.toList_inj, fromCString, String.toList_ofList]
  have cut : text.toList.takeWhile (· ≠ '\x00') = text.toList ↔ '\x00' ∉ text.toList := by
    rw [List.takeWhile_eq_self_iff]
    constructor
    · intro other member
      simpa using other _ member
    · intro absent c member
      have other : c ≠ '\x00' := by
        rintro rfl
        exact absent member
      simpa using other
  rw [lists, PlainText, ← cut]
  constructor
  · intro same
    have whole : text.toList.takeWhile (· ≠ '\x00') = text.toList := by
      apply (List.takeWhile_prefix _).eq_of_length_le
      have shorter := dropMark_length (text.toList.takeWhile (· ≠ '\x00'))
      rwa [same] at shorter
    rw [whole] at same
    exact ⟨whole, (dropMark_eq_iff _).mp same⟩
  · rintro ⟨whole, plain⟩
    rw [whole]
    exact (dropMark_eq_iff _).mpr plain

theorem openedLabel_eq_iff (label : String) : openedLabel label = label ↔ label ≠ "" ∧ PlainText label := by
  unfold openedLabel
  split
  · rename_i nothing
    refine iff_of_false ?_ ?_
    · rintro rfl
      exact absurd nothing (by decide)
    · rintro ⟨nonempty, plain⟩
      rw [(fromCString_eq_iff label).mpr plain, String.isEmpty_iff] at nothing
      exact nonempty nothing
  · rename_i something
    rw [fromCString_eq_iff]
    refine (and_iff_right_of_imp ?_).symm
    rintro plain rfl
    exact something (by decide)

structure KeepsMetadata (shape : ShapeS) : Prop where
  label : shape.label ≠ ""
  plain : PlainText shape.label
  description : shape.description = "description"
  groupId : shape.groupId = 0

theorem resaved_metadata_iff (img : QImage) (mode : DrawMode) (shape : ShapeS) :
    (resaved img mode shape).metadata = shape.metadata ↔ KeepsMetadata shape := by
  have parts : (resaved img mode shape).metadata = shape.metadata ↔
      openedLabel shape.label = shape.label ∧ "description" = shape.description ∧ 0 = shape.groupId := by
    simp [ShapeS.metadata, resaved]
  rw [parts, openedLabel_eq_iff]
  constructor
  · rintro ⟨⟨label, plain⟩, description, groupId⟩
    exact ⟨label, plain, description.symm, groupId.symm⟩
  · rintro ⟨label, plain, description, groupId⟩
    exact ⟨⟨label, plain⟩, description.symm, groupId.symm⟩

open Window in
/-- Opening and saving writes as many shapes in the same order. Their labels, descriptions and groups
    are those of the file exactly when they are the defaults and the labels are plain. -/
theorem metadata_kept_iff (p : Platform) (absolute : p.Absolute) (w : Window)
    (source : AnnotationFile p w.disk) (selected : w.canvas.draw ≠ .none) (colors : ℕ → QColor) :
    ∃ last, w.cycle p source.file colors = .ok last ∧
      (last.fileShapes p source.file).length = (w.fileShapes p source.file).length ∧
      ((last.fileShapes p source.file).map ShapeS.metadata = (w.fileShapes p source.file).map ShapeS.metadata ↔
        ∀ shape ∈ w.fileShapes p source.file, KeepsMetadata shape) := by
  obtain ⟨last, after, ran, kept, _, shapes⟩ :=
    cycle_completes absolute selected source.holds colors
  refine ⟨last, ran, ?_, ?_⟩
  · rw [kept.fileShapes, source.holds.fileShapes, shapes, List.length_map]
  · rw [kept.fileShapes, source.holds.fileShapes, shapes, List.map_map, List.map_inj_left]
    apply forall₂_congr
    intro shape _
    exact resaved_metadata_iff source.img w.canvas.draw shape

theorem one_pixel_metadata :
    ∃ last, deskWindow.cycle desk "/pics/a.json" deskColors = .ok last ∧
      (last.fileShapes desk "/pics/a.json").length = (deskWindow.fileShapes desk "/pics/a.json").length ∧
      ((last.fileShapes desk "/pics/a.json").map ShapeS.metadata =
          (deskWindow.fileShapes desk "/pics/a.json").map ShapeS.metadata ↔
        ∀ shape ∈ deskWindow.fileShapes desk "/pics/a.json", KeepsMetadata shape) :=
  metadata_kept_iff desk desk_absolute deskWindow deskSource (by decide) deskColors

/-- The description and the group of the one shape in the file are lost. -/
theorem description_lost_by_cycle :
    ∃ last, deskWindow.cycle desk "/pics/a.json" deskColors = .ok last ∧
      (last.fileShapes desk "/pics/a.json").map ShapeS.metadata = [("cat", "description", 0)] ∧
      (deskWindow.fileShapes desk "/pics/a.json").map ShapeS.metadata = [("cat", "left ear", 3)] ∧
      (last.fileShapes desk "/pics/a.json").map ShapeS.metadata ≠
        (deskWindow.fileShapes desk "/pics/a.json").map ShapeS.metadata := by
  have observed : (deskWindow.cycle desk "/pics/a.json" deskColors).map
      (fun last => (last.fileShapes desk "/pics/a.json").map ShapeS.metadata) =
        .ok [("cat", "description", 0)] := by decide +kernel
  have before : (deskWindow.fileShapes desk "/pics/a.json").map ShapeS.metadata = [("cat", "left ear", 3)] := by
    decide +kernel
  obtain ⟨last, ran, lost⟩ := map_completes observed
  refine ⟨last, ran, lost, before, ?_⟩
  rw [lost, before]
  decide

end Metadata

section Types

def CanvasBase.shapeTypes (c : CanvasBase) : List DrawMode := c.shapes.map Shape.type

namespace Window

/-- A save with this answer in the directory dialog writes a file that can be opened. -/
structure SavesTo (p : Platform) (w : Window) (chosen filename : String) (files : FileManager) (root : RootS)
    (img : QImage) : Prop where
  writes : w.saving p chosen = .ok (files, some (filename, root))
  json : IsJson filename
  image : p.base64ToImg root.imageData = some img
  sized : ∃ height width, root.Sized height width

variable {p : Platform} {w : Window} {chosen filename : String} {files : FileManager} {root : RootS}

theorem saveFile_eq (writes : w.saving p chosen = .ok (files, some (filename, root))) :
    w.saveFile p chosen = .ok { w with files, disk := store p w.disk filename root } := by
  rw [saveFile, writes]
  rfl

/-- After saving and opening again every shape has the type of the draw mode selected then, so the
    types are kept exactly when it was the type of all of them. -/
theorem types_kept_iff {img : QImage} (saves : SavesTo p w chosen filename files root img) (mode : DrawMode)
    (selected : mode ≠ .none) (colors : ℕ → QColor) :
    ∃ saved ready reopened, w.saveFile p chosen = .ok saved ∧
      saved.handle p (.canvas (.changeDrawMode mode)) = .ok ready ∧
      ready.openFile p filename colors = .ok reopened ∧
      (reopened.canvas.shapeTypes = w.canvas.shapeTypes ↔ ∀ type ∈ w.canvas.shapeTypes, type = mode) := by
  obtain ⟨height, width, sized⟩ := saves.sized
  have holds : Holds p (store p w.disk filename root) filename root.reread img :=
    store_holds saves.json rfl sized saves.image
  let ready : Window := { w with
    canvas := { w.canvas with draw := mode }, files, disk := store p w.disk filename root }
  obtain ⟨canvas, done, opened⟩ := openFile_completes (w := ready) selected holds colors
  refine ⟨_, ready, _, saveFile_eq saves.writes, rfl, done, ?_⟩
  have types : canvas.shapeTypes = w.canvas.shapes.map fun _ => mode := by
    have all := opened.shapes Shape.type (fun _ => mode)
      (fun shape _ _ => (openedShape_spec img mode shape).2.1)
    have count : root.reread.shapes = (w.canvas.shapes.map savedShape).map ShapeS.reread := by
      rw [← (saving_shapes saves.writes).2]
      rfl
    rw [count, List.map_map, List.map_map] at all
    exact all
  change canvas.shapeTypes = w.canvas.shapeTypes ↔ _
  rw [types, CanvasBase.shapeTypes, List.map_inj_left, List.forall_mem_map]
  exact forall₂_congr fun shape _ => eq_comm

def sketched : Window :=
  { deskWindow with
    canvas := { Canvas2D.fresh with
      heap := fun _ => (Shape.new .rectangle).setimgWH black
      next := 1, image := some black, shapeList := [0], currentIndex := 0 }
    files := { FileManager.fresh 0 with imageFiles := ["/pics/a.png"] }
    rows := ["/pics/a.png"] }

def sketchRoot : RootS :=
  { version := "1.0.0", flags := ""
    shapes := [⟨"", [], 0, "description", "rectangle", "", 0⟩]
    imagePath := "/pics/a.png", imageData := blackText, imageHeight := "1", imageWidth := "1" }

theorem sketched_saves : SavesTo desk sketched "/out" "/out/a_labels.json"
    { sketched.files with savePath := "/out", labelFile := "a_labels.json" } sketchRoot black where
  writes := by decide +kernel
  json := by decide
  image := by decide +kernel
  sized := ⟨1, 1, by decide +kernel, by decide +kernel, by decide, by decide⟩

theorem sketched_types :
    ∃ saved ready reopened, sketched.saveFile desk "/out" = .ok saved ∧
      saved.handle desk (.canvas (.changeDrawMode .rectangle)) = .ok ready ∧
      ready.openFile desk "/out/a_labels.json" deskColors = .ok reopened ∧
      (reopened.canvas.shapeTypes = sketched.canvas.shapeTypes ↔
        ∀ type ∈ sketched.canvas.shapeTypes, type = .rectangle) :=
  types_kept_iff sketched_saves .rectangle (by decide) deskColors

/-- A picture is opened, a rectangle is begun and saved. Opened in polygon mode it is a polygon. -/
theorem rectangle_reopened_as_polygon :
    ∃ w saved ready reopened,
      run (Window.handle desk) deskWindow [.openFile "/pics/a.png" deskColors,
        .canvas (.changeDrawMode .rectangle), .canvas (.mousePress ⟨0, 0⟩ true none)] = .ok w ∧
      w.saveFile desk "/out" = .ok saved ∧
      saved.handle desk (.canvas (.changeDrawMode .polygon)) = .ok ready ∧
      ready.openFile desk "/out/a_labels.json" deskColors = .ok reopened ∧
      w.canvas.shapeTypes = [.rectangle] ∧ reopened.canvas.shapeTypes = [.polygon] ∧
      reopened.canvas.shapeTypes ≠ w.canvas.shapeTypes := by
  have observed : (do
      let w ← run (Window.handle desk) deskWindow [.openFile "/pics/a.png" deskColors,
        .canvas (.changeDrawMode .rectangle), .canvas (.mousePress ⟨0, 0⟩ true none)]
      let saved ← w.saveFile desk "/out"
      let ready ← saved.handle desk (.canvas (.changeDrawMode .polygon))
      let reopened ← ready.openFile desk "/out/a_labels.json" deskColors
      .ok (w.canvas.shapeTypes, reopened.canvas.shapeTypes) : Except Fault _) =
        .ok ([.rectangle], [.polygon]) := by decide +kernel
  obtain ⟨w, drawn, observed⟩ := bind_completes observed
  obtain ⟨saved, wrote, observed⟩ := bind_completes observed
  obtain ⟨ready, chose, observed⟩ := bind_completes observed
  obtain ⟨reopened, done, observed⟩ := bind_completes observed
  obtain ⟨before, after⟩ := Prod.mk.inj (Except.ok.inj observed)
  refine ⟨w, saved, ready, reopened, drawn, wrote, chose, done, before, after, ?_⟩
  rw [before, after]
  decide

end Window

end Types

end XYAnnotation
