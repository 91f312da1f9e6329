import XYAnnotation.Files.Json

namespace XYAnnotation

open Library

section Points

def pointJson (point : QPointF) : Json := .arr [.float point.x, .float point.y]

def pointsJson : List QPointF → Json
  | [] => .null
  | points => .arr (points.map pointJson)

theorem pointFromJson_pointJson (point : QPointF) : pointFromJson (pointJson point) = .ok point := rfl

theorem foldlM_pointToJson (items : List Json) (points : List QPointF) :
    points.foldlM pointToJson (.arr items) = .ok (.arr (items ++ points.map pointJson)) := by
  induction points generalizing items with
  | nil => simp [pure, Except.pure]
  | cons point points ih =>
    rw [List.foldlM_cons]
    change points.foldlM pointToJson (.arr (items ++ [pointJson point])) = _
    rw [ih, List.map_cons, List.append_assoc, List.singleton_append]

theorem foldlM_pointToJson_null (points : List QPointF) :
    points.foldlM pointToJson .null = .ok (pointsJson points) := by
  cases points with
  | nil => rfl
  | cons point points =>
    rw [List.foldlM_cons]
    change points.foldlM pointToJson (.arr [pointJson point]) = _
    rw [foldlM_pointToJson, List.singleton_append]
    rfl

theorem items_pointsJson (points : List QPointF) : (pointsJson points).items = points.map pointJson := by
  cases points <;> rfl

theorem mapM_pointFromJson (points : List QPointF) :
    (points.map pointJson).mapM pointFromJson = .ok points := by
  rw [List.mapM_map]
  have reads : pointFromJson ∘ pointJson = fun point => (pure point : Except Fault QPointF) := by
    funext point
    exact pointFromJson_pointJson point
  rw [reads, List.mapM_pure, List.map_id']
  rfl

end Points

section Shapes

def shapeJson (shape : ShapeS) : Json :=
  .obj [("label", .str shape.label), ("points", pointsJson shape.points), ("group_id", .int shape.groupId),
    ("description", .str shape.description), ("shape_type", .str shape.shapeType),
    ("flags", .str shape.flags), ("mask", .int shape.mask)]

/-- What is read from the file a shape was written to. -/
def ShapeS.reread (shape : ShapeS) : ShapeS :=
  { shape with groupId := shape.groupId.bmod (2 ^ 32), mask := shape.mask.bmod (2 ^ 32) }

theorem shapeToJson_eq (shape : ShapeS) : shapeToJson shape = .ok (shapeJson shape) := by
  unfold shapeToJson
  rw [foldlM_pointToJson_null]
  rfl

theorem shapeFromJson_shapeJson (shape : ShapeS) : shapeFromJson (shapeJson shape) = .ok shape.reread := by
  have points : (shapeJson shape).at "points" = .ok (pointsJson shape.points) := rfl
  have read : (pointsJson shape.points).items.mapM pointFromJson = .ok shape.points := by
    rw [items_pointsJson, mapM_pointFromJson]
  unfold shapeFromJson
  rw [points]
  change ((pointsJson shape.points).items.mapM pointFromJson >>= _) = _
  rw [read]
  rfl

theorem mapM_shapeToJson (shapes : List ShapeS) : shapes.mapM shapeToJson = .ok (shapes.map shapeJson) := by
  have writes : shapeToJson = fun shape => (pure (shapeJson shape) : Except Fault Json) := by
    funext shape
    exact shapeToJson_eq shape
  rw [writes, List.mapM_pure]
  rfl

theorem shapesFromJson_run (shapes : List ShapeS) (root : RootS) :
    (shapesFromJson (shapes.map shapeJson)).run root =
      (.ok (), { root with shapes := root.shapes ++ shapes.map ShapeS.reread }) := by
  induction shapes generalizing root with
  | nil =>
    rw [List.map_nil, List.map_nil, List.append_nil]
    rfl
  | cons shape shapes ih =>
    have pushed := ih { root with shapes := root.shapes ++ [shape.reread] }
    have joined : root.shapes ++ [shape.reread] ++ shapes.map ShapeS.reread =
        root.shapes ++ (shape :: shapes).map ShapeS.reread := by simp
    rw [List.map_cons, shapesFromJson, shapeFromJson_shapeJson, ← joined]
    exact pushed

end Shapes

section Root

def rootJson (root : RootS) (height width : ℤ) : Json :=
  .obj [("version", .str root.version), ("flags", .str root.flags),
    ("shapes", .arr (root.shapes.map shapeJson)), ("imagePath", .str root.imagePath),
    ("imageData", .str root.imageData), ("imageHeight", .int height), ("imageWidth", .int width)]

/-- What is read from the file a root was written to; the flags come back as the version. -/
def RootS.reread (root : RootS) : RootS :=
  { root with flags := root.version, shapes := root.shapes.map ShapeS.reread }

structure RootS.Sized (root : RootS) (height width : ℤ) : Prop where
  heightText : root.imageHeight = stdToString height
  widthText : root.imageWidth = stdToString width
  heightInt : IsInt height
  widthInt : IsInt width

theorem bmod_isInt (n : ℤ) : IsInt (n.bmod (2 ^ 32)) := by
  have low := Int.le_bmod (x := n) (m := 2 ^ 32) (by decide)
  have high := Int.bmod_lt (x := n) (m := 2 ^ 32) (by decide)
  constructor <;> omega

theorem bmod_of_isInt {n : ℤ} (range : IsInt n) : n.bmod (2 ^ 32) = n := by
  obtain ⟨low, high⟩ := range
  apply Int.bmod_eq_of_le <;> omega

theorem rootToJson_eq {root : RootS} {height width : ℤ} (heightRead : stoi root.imageHeight = .ok height)
    (widthRead : stoi root.imageWidth = .ok width) : rootToJson root = .ok (rootJson root height width) := by
  unfold rootToJson
  rw [mapM_shapeToJson, heightRead, widthRead]
  rfl

theorem RootS.Sized.toJson {root : RootS} {height width : ℤ} (sized : root.Sized height width) :
    rootToJson root = .ok (rootJson root height width) := by
  apply rootToJson_eq
  · rw [sized.heightText, stoi_stdToString sized.heightInt]
  · rw [sized.widthText, stoi_stdToString sized.widthInt]

theorem writeJson_eq {root : RootS} {height width : ℤ} (sized : root.Sized height width) :
    writeJson root = some (rootJson root height width) := by
  rw [writeJson, sized.toJson]

theorem imageFromJson_run (root before : RootS) {height width : ℤ} (heightInt : IsInt height)
    (widthInt : IsInt width) :
    (imageFromJson (rootJson root height width)).run before = (.ok (), { before with
      imagePath := root.imagePath, imageData := root.imageData,
      imageHeight := stdToString height, imageWidth := stdToString width }) := by
  have heightRead : (rootJson root height width).integer "imageHeight" = .ok height :=
    congrArg Except.ok (bmod_of_isInt heightInt)
  have widthRead : (rootJson root height width).integer "imageWidth" = .ok width :=
    congrArg Except.ok (bmod_of_isInt widthInt)
  unfold imageFromJson
  rw [heightRead, widthRead]
  rfl

theorem rootFromJson_run (root before : RootS) {height width : ℤ} (heightInt : IsInt height)
    (widthInt : IsInt width) :
    (rootFromJson (rootJson root height width)).run before = (.ok (), { root.reread with
      shapes := before.shapes ++ root.shapes.map ShapeS.reread
      imageHeight := stdToString height, imageWidth := stdToString width }) := by
  have filled := shapesFromJson_run root.shapes { before with version := root.version, flags := root.version }
  change ((shapesFromJson (root.shapes.map shapeJson)) >>= fun _ => imageFromJson _).run
    { before with version := root.version, flags := root.version } = _
  simp only [run_bind, filled, imageFromJson_run root _ heightInt widthInt]
  rfl

theorem RootS.Sized.fromJson {root : RootS} {height width : ℤ} (sized : root.Sized height width) :
    (rootFromJson (rootJson root height width)).run .empty = (.ok (), root.reread) := by
  rw [rootFromJson_run root .empty sized.heightInt sized.widthInt, ← sized.heightText, ← sized.widthText]
  rfl

theorem readJson_writeJson {root : RootS} {height width : ℤ} (sized : root.Sized height width) :
    ∃ document, writeJson root = some document ∧ readJson (some document) .empty = .ok (true, root.reread) := by
  refine ⟨_, writeJson_eq sized, ?_⟩
  simp only [readJson, sized.fromJson]

theorem getInt_isInt {j : Json} {n : ℤ} (read : j.getInt = .ok n) : IsInt n := by
  cases j with
  | int value =>
    cases read
    exact bmod_isInt value
  | float value =>
    rw [Json.getInt] at read
    split at read
    · rename_i range
      cases read
      exact range
    · cases read
  | bool value =>
    cases read
    cases value <;> decide
  | null | str | arr | obj => cases read

theorem integer_isInt {j : Json} {key : String} {n : ℤ} (read : j.integer key = .ok n) : IsInt n := by
  obtain ⟨found, _, rest⟩ := bind_completes read
  split at rest
  · cases rest
    decide
  · unfold Json.value at rest
    split at rest
    · split at rest
      · exact getInt_isInt rest
      · cases rest
        decide
    · cases rest

theorem imageFromJson_sized {j : Json} {before root : RootS}
    (filled : (imageFromJson j).run before = (.ok (), root)) : ∃ height width, root.Sized height width := by
  obtain ⟨_, _, _, filled⟩ := run_bind_completes filled
  obtain ⟨_, _, _, filled⟩ := run_bind_completes filled
  obtain ⟨_, _, _, filled⟩ := run_bind_completes filled
  obtain ⟨_, _, _, filled⟩ := run_bind_completes filled
  obtain ⟨height, _, fetched, filled⟩ := run_bind_completes filled
  obtain ⟨heightRead, rfl⟩ := Prod.mk.inj fetched
  obtain ⟨_, _, set, filled⟩ := run_bind_completes filled
  cases set
  obtain ⟨width, _, fetched, filled⟩ := run_bind_completes filled
  obtain ⟨widthRead, rfl⟩ := Prod.mk.inj fetched
  cases filled
  exact ⟨height, width, rfl, rfl, integer_isInt heightRead, integer_isInt widthRead⟩

theorem readJson_sized {document : Option Json} {before root : RootS}
    (read : readJson document before = .ok (true, root)) : ∃ height width, root.Sized height width := by
  unfold readJson at read
  split at read
  · cases read
  · rename_i j
    split at read
    · rename_i ran
      cases read
      unfold rootFromJson at ran
      obtain ⟨_, _, _, ran⟩ := run_bind_completes ran
      obtain ⟨_, _, _, ran⟩ := run_bind_completes ran
      obtain ⟨_, _, _, ran⟩ := run_bind_completes ran
      obtain ⟨_, _, _, ran⟩ := run_bind_completes ran
      obtain ⟨_, _, _, ran⟩ := run_bind_completes ran
      obtain ⟨_, _, _, ran⟩ := run_bind_completes ran
      exact imageFromJson_sized ran
    · split at read <;> cases read

end Root

section Codec

theorem stoiDigits_isInt {sign n : ℤ} {cs : List Char} (read : stoiDigits sign cs = .ok n) : IsInt n := by
  unfold stoiDigits at read
  simp only at read
  split at read
  · cases read
  · split at read
    · rename_i range
      cases read
      exact range
    · cases read

theorem stoi_isInt {text : String} {n : ℤ} (read : stoi text = .ok n) : IsInt n := by
  unfold stoi at read
  split at read <;> exact stoiDigits_isInt read

theorem reread_of_isInt {shape : ShapeS} (groupId : IsInt shape.groupId) (mask : IsInt shape.mask) :
    shape.reread = shape := by
  rw [ShapeS.reread, bmod_of_isInt groupId, bmod_of_isInt mask]

/-- Every list of shapes is read as it was written. -/
theorem shapes_round_trip (root : RootS) (height width : ℤ) (heightRead : stoi root.imageHeight = .ok height)
    (widthRead : stoi root.imageWidth = .ok width)
    (ints : ∀ shape ∈ root.shapes, IsInt shape.groupId ∧ IsInt shape.mask) :
    ∃ document result, rootToJson root = .ok document ∧
      (rootFromJson document).run .empty = (.ok (), result) ∧ result.shapes = root.shapes := by
  refine ⟨_, _, rootToJson_eq heightRead widthRead,
    rootFromJson_run root .empty (stoi_isInt heightRead) (stoi_isInt widthRead), ?_⟩
  change [] ++ root.shapes.map ShapeS.reread = root.shapes
  have same : ∀ shape ∈ root.shapes, shape.reread = shape := by
    intro shape member
    obtain ⟨groupId, mask⟩ := ints shape member
    exact reread_of_isInt groupId mask
  rw [List.nil_append, List.map_congr_left same, List.map_id']

def twoShapes : RootS :=
  { RootS.empty with
    shapes := [⟨"", [], 0, "", "", "", 0⟩, ⟨"cat", [⟨0, 1⟩, ⟨1 / 2, 3⟩], -7, "ear", "line", "x", 1⟩]
    imageHeight := "+12", imageWidth := " 34px" }

theorem twoShapes_round_trip :
    ∃ document result, rootToJson twoShapes = .ok document ∧
      (rootFromJson document).run .empty = (.ok (), result) ∧ result.shapes = twoShapes.shapes :=
  shapes_round_trip twoShapes 12 34 (by decide +kernel) (by decide +kernel) (by decide +kernel)

def RootS.header (root : RootS) : List String :=
  [root.version, root.flags, root.imagePath, root.imageData, root.imageHeight, root.imageWidth]

/-- The header is read as it was written exactly when the flags are equal to the version. -/
theorem header_kept_iff (root before : RootS) (height width : ℤ) (sized : root.Sized height width) :
    ∃ document result, rootToJson root = .ok document ∧
      (rootFromJson document).run before = (.ok (), result) ∧
      (result.header = root.header ↔ root.flags = root.version) := by
  refine ⟨_, _, sized.toJson, rootFromJson_run root before sized.heightInt sized.widthInt, ?_⟩
  simp [RootS.header, RootS.reread, sized.heightText, sized.widthText, eq_comm]

def savedHeader : RootS :=
  { version := "1.0.0", flags := "", shapes := [], imagePath := "a.png", imageData := ""
    imageHeight := "12", imageWidth := "-34" }

theorem savedHeader_sized : savedHeader.Sized 12 (-34) :=
  ⟨by decide +kernel, by decide +kernel, by decide, by decide⟩

theorem savedHeader_kept_iff :
    ∃ document result, rootToJson savedHeader = .ok document ∧
      (rootFromJson document).run .empty = (.ok (), result) ∧
      (result.header = savedHeader.header ↔ savedHeader.flags = savedHeader.version) :=
  header_kept_iff savedHeader .empty 12 (-34) savedHeader_sized

/-- Empty flags come back as the version. -/
theorem flags_read_from_version :
    ∃ document result, rootToJson savedHeader = .ok document ∧
      (rootFromJson document).run .empty = (.ok (), result) ∧
      result.flags = "1.0.0" ∧ result.header ≠ savedHeader.header := by
  refine ⟨_, _, savedHeader_sized.toJson, savedHeader_sized.fromJson, rfl, ?_⟩
  decide +kernel

end Codec

end XYAnnotation
