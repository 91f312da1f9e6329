import XYAnnotation.Files.Reader

namespace XYAnnotation

open Library

section Kept

variable {j : Json} {root : RootS}

/-- The members that describe the image have the values already that are read before the first failure. -/
def KeptImage (j : Json) (root : RootS) : Prop :=
  ∀ imagePath, j.text "imagePath" = .ok imagePath → root.imagePath = imagePath ∧
    ∀ imageData, j.text "imageData" = .ok imageData → root.imageData = imageData ∧
      ∀ height, j.integer "imageHeight" = .ok height → root.imageHeight = stdToString height ∧
        ∀ width, j.integer "imageWidth" = .ok width → root.imageWidth = stdToString width

/-- No shape is read, be it that there is none or that the first one fails. `Later` is asked for when there is none. -/
def KeptShapes (Later : Prop) : List Json → Prop
  | [] => Later
  | item :: _ => ∀ shape, shapeFromJson item ≠ .ok shape

def Kept (j : Json) (root : RootS) : Prop :=
  ∀ version, j.text "version" = .ok version → root.version = version ∧
    ∀ flags, j.member Json.getText "" "flags" "version" = .ok flags → root.flags = flags ∧
      ∀ shapes, j.at "shapes" = .ok shapes → KeptShapes (KeptImage j root) shapes.items

theorem assign_left {α : Type} (get : RootS → String) (set : String → RootS → RootS)
    (get_set : ∀ text root, get (set text root) = text) (set_get : ∀ root, set (get root) root = root)
    (result : Except Fault α) (text : α → String) {rest : Filling Unit} {Later : Prop} (keeps : Keeps get rest)
    (later : (rest.run root).2 = root ↔ Later) :
    ((fetch result >>= fun value => (modify (set (text value)) : Filling PUnit) >>= fun _ => rest).run root).2 = root ↔
      ∀ value, result = .ok value → get root = text value ∧ Later := by
  rw [fetch_bind_run, ← later]
  cases result with
  | error fault => simp
  | ok value =>
    simp only [modify_bind_run]
    constructor
    · intro left found same
      cases same
      have member : get root = text value := by
        calc get root = get (rest.run (set (text value) root)).2 := by rw [left]
          _ = get (set (text value) root) := keeps _
          _ = text value := get_set _ _
      have unchanged : set (text value) root = root := by rw [← member, set_get]
      rw [unchanged] at left
      exact ⟨member, left⟩
    · intro kept
      obtain ⟨member, left⟩ := kept value rfl
      rw [← member, set_get]
      exact left

theorem keeps_assign {α Seen : Type} {observe : RootS → Seen} {result : Except Fault α} {f : α → RootS → RootS}
    {rest : Filling Unit} (same : ∀ value root, observe (f value root) = observe root) (keeps : Keeps observe rest) :
    Keeps observe (fetch result >>= fun value => (modify (f value) : Filling PUnit) >>= fun _ => rest) :=
  (keeps_check result).bind fun value => (keeps_modify (same value)).bind fun _ => keeps

theorem keeps_last {α Seen : Type} {observe : RootS → Seen} {result : Except Fault α} {f : α → RootS → RootS}
    (same : ∀ value root, observe (f value root) = observe root) :
    Keeps observe (fetch result >>= fun value => (modify (f value) : Filling Unit)) :=
  (keeps_check result).bind fun value => keeps_modify (same value)

theorem imageFromJson_keeps {Seen : Type} {observe : RootS → Seen} (j : Json)
    (same : ∀ root imagePath imageData imageHeight imageWidth,
      observe { root with imagePath, imageData, imageHeight, imageWidth } = observe root) :
    Keeps observe (imageFromJson j) := by
  apply keeps_assign
  · intro imagePath root
    exact same root imagePath root.imageData root.imageHeight root.imageWidth
  · apply keeps_assign
    · intro imageData root
      exact same root root.imagePath imageData root.imageHeight root.imageWidth
    · apply keeps_assign
      · intro height root
        exact same root root.imagePath root.imageData (stdToString height) root.imageWidth
      · apply keeps_last
        intro width root
        exact same root root.imagePath root.imageData root.imageHeight (stdToString width)

theorem imageFromJson_left (j : Json) (root : RootS) : ((imageFromJson j).run root).2 = root ↔ KeptImage j root := by
  have width : ((fetch (j.integer "imageWidth") >>= fun width =>
      (modify fun root => { root with imageWidth := stdToString width } : Filling Unit)).run root).2 = root ↔
      ∀ width, j.integer "imageWidth" = .ok width → root.imageWidth = stdToString width := by
    rw [fetch_bind_run]
    cases j.integer "imageWidth" with
    | error fault => simp
    | ok width =>
      constructor
      · intro left found same
        cases same
        exact (congrArg RootS.imageWidth left).symm
      · intro kept
        have member := kept width rfl
        change { root with imageWidth := stdToString width } = root
        rw [← member]
  apply assign_left (·.imagePath) (fun imagePath root => { root with imagePath }) (fun _ _ => rfl) (fun _ => rfl)
    (j.text "imagePath") id
  · refine keeps_assign (fun _ _ => rfl) ?_
    refine keeps_assign (fun _ _ => rfl) ?_
    exact keeps_last fun _ _ => rfl
  apply assign_left (·.imageData) (fun imageData root => { root with imageData }) (fun _ _ => rfl) (fun _ => rfl)
    (j.text "imageData") id
  · refine keeps_assign (fun _ _ => rfl) ?_
    exact keeps_last fun _ _ => rfl
  apply assign_left (·.imageHeight) (fun imageHeight root => { root with imageHeight }) (fun _ _ => rfl) (fun _ => rfl)
    (j.integer "imageHeight") stdToString
  · exact keeps_last fun _ _ => rfl
  exact width

theorem shapesFromJson_grows (items : List Json) (root : RootS) :
    root.shapes.length ≤ ((shapesFromJson items).run root).2.shapes.length := by
  induction items generalizing root with
  | nil => exact Nat.le_refl _
  | cons item items ih =>
    rw [shapesFromJson, fetch_bind_run]
    split
    · rename_i shape read
      have rest := ih { root with shapes := root.shapes ++ [shape] }
      simp only [List.length_append, List.length_singleton] at rest
      rw [modify_bind_run]
      omega
    · exact Nat.le_refl _

theorem shapesFromJson_keeps {Seen : Type} {observe : RootS → Seen} (items : List Json)
    (same : ∀ root shapes, observe { root with shapes } = observe root) : Keeps observe (shapesFromJson items) := by
  induction items with
  | nil => exact fun _ => rfl
  | cons item items ih => exact keeps_assign (fun shape root => same root _) ih

theorem shapes_left (items : List Json) {action : Filling Unit} {Later : Prop} (keeps : Keeps (·.shapes) action)
    (later : (action.run root).2 = root ↔ Later) :
    ((shapesFromJson items >>= fun _ => action).run root).2 = root ↔ KeptShapes Later items := by
  cases items with
  | nil => exact later
  | cons item items =>
    have last : ((shapesFromJson (item :: items) >>= fun _ => action).run root).2.shapes =
        ((shapesFromJson (item :: items)).run root).2.shapes := by
      rw [run_bind]
      split
      · rename_i ran
        rw [ran]
        exact keeps _
      · rename_i ran
        rw [ran]
    cases read : shapeFromJson item with
    | error fault =>
      refine iff_of_true ?_ ?_
      · rw [run_bind, shapesFromJson, fetch_bind_run, read]
      · intro shape made
        rw [read] at made
        cases made
    | ok shape =>
      refine iff_of_false ?_ fun none => none shape read
      intro left
      have grown := shapesFromJson_grows items { root with shapes := root.shapes ++ [shape] }
      rw [left, shapesFromJson, fetch_bind_run, read] at last
      change root.shapes = ((shapesFromJson items).run { root with shapes := root.shapes ++ [shape] }).2.shapes at last
      rw [← last] at grown
      simp at grown

theorem rootFromJson_left (j : Json) (root : RootS) : ((rootFromJson j).run root).2 = root ↔ Kept j root := by
  have image := imageFromJson_left j root
  have shapes : ((fetch (j.at "shapes") >>= fun shapes => shapesFromJson shapes.items >>= fun _ =>
      imageFromJson j).run root).2 = root ↔
      ∀ shapes, j.at "shapes" = .ok shapes → KeptShapes (KeptImage j root) shapes.items := by
    rw [fetch_bind_run]
    cases j.at "shapes" with
    | error fault => simp
    | ok shapes =>
      simp only [Except.ok.injEq, forall_eq']
      exact shapes_left shapes.items (imageFromJson_keeps j fun _ _ _ _ _ => rfl) image
  have keeps : ∀ {Seen : Type} {observe : RootS → Seen}, (∀ root shapes, observe { root with shapes } = observe root) →
      (∀ root imagePath imageData imageHeight imageWidth,
        observe { root with imagePath, imageData, imageHeight, imageWidth } = observe root) →
      Keeps observe (fetch (j.at "shapes") >>= fun shapes => shapesFromJson shapes.items >>= fun _ =>
        imageFromJson j) := by
    intro Seen observe beside apart
    exact (keeps_check _).bind fun shapes => (shapesFromJson_keeps shapes.items beside).bind fun _ =>
      imageFromJson_keeps j apart
  apply assign_left (·.version) (fun version root => { root with version }) (fun _ _ => rfl) (fun _ => rfl)
    (j.text "version") id
  · exact keeps_assign (fun _ _ => rfl) (keeps (fun _ _ => rfl) fun _ _ _ _ _ => rfl)
  apply assign_left (·.flags) (fun flags root => { root with flags }) (fun _ _ => rfl) (fun _ => rfl)
    (j.member Json.getText "" "flags" "version") id
  · exact keeps (fun _ _ => rfl) fun _ _ _ _ _ => rfl
  exact shapes

end Kept

/-- The reader replaces the root or leaves it alone: what it makes of two roots is the same, and a root that it fails
    to fill is as it was, the file manager with it. -/
structure ReplacesOrLeaves (content : Option Json) (first second : RootS) : Prop where
  replaces : ∀ filled other, readJson content first = .ok (true, filled) → readJson content second = .ok (true, other) →
    filled = other
  leaves : ∀ left, readJson content first = .ok (false, left) → left = first
  manager : ∀ (p : Platform) (m : FileManager) (disk : Disk) (file : String) left, disk (p.location file) = content →
    readJson content first = .ok (false, left) → m.openFile p disk first file = .ok (m, left)

/-- Two roots have the same shapes when the document is accepted, and the first one has everything already that is read
    from a document that is refused. -/
def Agrees (first second : RootS) (j : Json) : Prop :=
  (Passes j.rootChecks → first.shapes = second.shapes) ∧
    (Gapless j.rootChecks → ¬ Passes j.rootChecks → Kept j first)

section Replaces

variable {j : Json} {first second filled other : RootS}

theorem Decoded.eq_iff (decoded : Decoded j first filled) (again : Decoded j second other) :
    filled = other ↔ first.shapes = second.shapes := by
  obtain ⟨read, done, joined⟩ := decoded.shapes
  obtain ⟨read', done', joined'⟩ := again.shapes
  obtain rfl := Except.ok.inj (done.symm.trans done')
  obtain ⟨height, heightRead, heightText⟩ := decoded.imageHeight
  obtain ⟨height', heightRead', heightText'⟩ := again.imageHeight
  obtain rfl := Except.ok.inj (heightRead.symm.trans heightRead')
  obtain ⟨width, widthRead, widthText⟩ := decoded.imageWidth
  obtain ⟨width', widthRead', widthText'⟩ := again.imageWidth
  obtain rfl := Except.ok.inj (widthRead.symm.trans widthRead')
  have version := Except.ok.inj (decoded.version.symm.trans again.version)
  have flags := Except.ok.inj (decoded.flags.symm.trans again.flags)
  have imagePath := Except.ok.inj (decoded.imagePath.symm.trans again.imagePath)
  have imageData := Except.ok.inj (decoded.imageData.symm.trans again.imageData)
  constructor
  · intro same
    rw [same, joined'] at joined
    exact (List.append_cancel_right joined).symm
  · intro same
    rw [← same, ← joined] at joined'
    cases filled
    cases other
    simp only [RootS.mk.injEq]
    exact ⟨version, flags, joined'.symm, imagePath, imageData, heightText.trans heightText'.symm,
      widthText.trans widthText'.symm⟩

theorem readJson_left (read : readJson (some j) first = .ok (false, filled)) :
    filled = first ↔ Kept j first := by
  rcases readJson_some_cases j first with ⟨result, _, accepted⟩ | ⟨fault, result, ran, failed⟩
  · rw [accepted] at read
    cases read
  · rw [failed] at read
    split at read
    · cases read
      rw [← rootFromJson_left, ran]
    · cases read

theorem readJson_refuses_iff (j : Json) (root : RootS) :
    (∃ left, readJson (some j) root = .ok (false, left)) ↔ Gapless j.rootChecks ∧ ¬ Passes j.rootChecks := by
  rw [← readJson_returns_iff j root, ← readJson_accepts_iff j root]
  constructor
  · rintro ⟨left, read⟩
    refine ⟨⟨false, left, read⟩, ?_⟩
    rintro ⟨result, accepted⟩
    rw [read] at accepted
    cases accepted
  · rintro ⟨⟨answer, result, read⟩, refused⟩
    cases answer with
    | true => exact absurd ⟨result, read⟩ refused
    | false => exact ⟨result, read⟩

/-- The manager is left alone whenever the file cannot be read, but the root keeps what was there before: the shapes of
    an accepted document come after the old ones, and a refused one leaves behind what was read of it. -/
theorem replaces_or_leaves_iff (content : Option Json) (first second : RootS) :
    ReplacesOrLeaves content first second ↔ ∀ j, content = some j → Agrees first second j := by
  constructor
  · rintro kept j rfl
    constructor
    · intro passes
      obtain ⟨filled, read⟩ := (readJson_accepts_iff j first).mpr passes
      obtain ⟨other, again⟩ := (readJson_accepts_iff j second).mpr passes
      exact ((readJson_decoded read).eq_iff (readJson_decoded again)).mp (kept.replaces filled other read again)
    · intro gapless fails
      obtain ⟨left, read⟩ := (readJson_refuses_iff j first).mpr ⟨gapless, fails⟩
      exact (readJson_left read).mp (kept.leaves left read)
  · intro agrees
    refine ⟨?_, ?_, ?_⟩
    · intro filled other read again
      cases content with
      | none => cases read
      | some j =>
        have passes := (readJson_accepts_iff j first).mp ⟨filled, read⟩
        exact ((readJson_decoded read).eq_iff (readJson_decoded again)).mpr ((agrees j rfl).1 passes)
    · intro left read
      cases content with
      | none =>
        cases read
        rfl
      | some j =>
        obtain ⟨gapless, fails⟩ := (readJson_refuses_iff j first).mp ⟨left, read⟩
        exact (readJson_left read).mpr ((agrees j rfl).2 gapless fails)
    · intro p m disk file left found read
      rw [FileManager.openFile, found, read]
      rfl

end Replaces

def numberedShapes : Json := .obj [("version", .str "1.0.0"), ("flags", .null), ("shapes", .int 7)]

/-- The version of a refused document stays behind, and so does a shape that was there before an accepted one. -/
theorem destination_mixed :
    readJson (some numberedShapes) .empty = .ok (false, { RootS.empty with version := "1.0.0" }) ∧
      ¬ ReplacesOrLeaves (some numberedShapes) .empty .empty ∧
      ¬ ReplacesOrLeaves (some (rootJson savedHeader 12 (-34))) twoShapes .empty := by
  have refused : readJson (some numberedShapes) .empty = .ok (false, { RootS.empty with version := "1.0.0" }) := rfl
  have accepted : ∀ before, ∃ filled, readJson (some (rootJson savedHeader 12 (-34))) before = .ok (true, filled) := by
    intro before
    rw [readJson, rootFromJson_run savedHeader before (by decide) (by decide)]
    exact ⟨_, rfl⟩
  refine ⟨refused, ?_, ?_⟩
  · intro kept
    exact absurd (kept.leaves _ refused) (by decide)
  · intro kept
    obtain ⟨filled, read⟩ := accepted twoShapes
    obtain ⟨other, again⟩ := accepted .empty
    have same := ((readJson_decoded read).eq_iff (readJson_decoded again)).mp (kept.replaces filled other read again)
    exact absurd same (by decide +kernel)

end XYAnnotation
