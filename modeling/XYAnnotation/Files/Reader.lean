import XYAnnotation.Files.FileManager
import XYAnnotation.Library.Checks

namespace XYAnnotation

open Library

namespace Json

def lookup? : Json → String → Option Json
  | .obj members, key => members.lookup key
  | _, _ => none

def item? : Json → ℕ → Option Json
  | .arr items, i => items[i]?
  | _, _ => none

def Missing (j : Json) (key : String) : Prop := j.lookup? key = none ∨ j.lookup? key = some .null

section Checks

def keyCheck (j : Json) (key : String) : Check where
  Defined := ∀ members, j = .obj members → ∃ found, members.lookup key = some found
  Typed := ∃ members, j = .obj members

def indexCheck (j : Json) (i : ℕ) : Check where
  Defined := ∀ items, j = .arr items → i < items.length
  Typed := ∃ items, j = .arr items

def textCheck (j : Json) : Check where
  Defined := True
  Typed := ∃ value, j = .str value

/-- A fraction that does not fit into an `int` is converted with undefined behaviour. -/
def intCheck (j : Json) : Check where
  Defined := ∀ value, j = .float value → IsInt (truncate value)
  Typed := (∃ value, j = .int value) ∨ (∃ value, j = .float value) ∨ ∃ value, j = .bool value

def doubleCheck (j : Json) : Check where
  Defined := True
  Typed := (∃ value, j = .int value) ∨ ∃ value, j = .float value

def memberChecks (valueCheck : Json → Check) (j : Json) (key source : String) : List Check :=
  j.keyCheck key :: match j.lookup? key with
    | some found => if found.empty then [] else (j.lookup? source).toList.map valueCheck
    | none => []

def textChecks (j : Json) (key : String) : List Check := j.memberChecks textCheck key key

def integerChecks (j : Json) (key : String) : List Check := j.memberChecks intCheck key key

def itemsAt (j : Json) (key : String) : List Json := (j.lookup? key).toList.flatMap items

def coordinateChecks (j : Json) (i : ℕ) : List Check := j.indexCheck i :: (j.item? i).toList.map doubleCheck

def pointChecks (j : Json) : List Check := j.coordinateChecks 0 ++ j.coordinateChecks 1

def shapeChecks (j : Json) : List Check :=
  j.textChecks "label" ++ (j.textChecks "description" ++ (j.textChecks "shape_type" ++ (j.textChecks "flags" ++
    (j.integerChecks "group_id" ++ (j.integerChecks "mask" ++
      ([j.keyCheck "points"] ++ (j.itemsAt "points").flatMap pointChecks))))))

def imageChecks (j : Json) : List Check :=
  j.textChecks "imagePath" ++ (j.textChecks "imageData" ++ (j.integerChecks "imageHeight" ++
    j.integerChecks "imageWidth"))

/-- Everything `from_json(j, root)` asks of the document, in the order in which it reads. -/
def rootChecks (j : Json) : List Check :=
  j.textChecks "version" ++ (j.memberChecks textCheck "flags" "version" ++ ([j.keyCheck "shapes"] ++
    ((j.itemsAt "shapes").flatMap shapeChecks ++ j.imageChecks)))

end Checks

section Judged

theorem at_judged (j : Json) (key : String) : Judged Fault.isException (j.at key) [j.keyCheck key] := by
  apply judged_single
  · intro fault failed
    cases j with
    | obj members =>
      unfold Json.at at failed
      simp only at failed
      split at failed
      · cases failed
      · rename_i absent
        cases failed
        have undefined : ¬ (Json.keyCheck (.obj members) key).Defined := by
          intro defined
          obtain ⟨found, present⟩ := defined members rfl
          rw [absent] at present
          cases present
        exact ⟨iff_of_false Bool.false_ne_true undefined, fun both => undefined both.1⟩
    | null | bool | int | float | str | arr =>
      cases failed
      refine ⟨iff_of_true rfl ?_, ?_⟩
      · intro members same
        cases same
      · rintro ⟨_, members, same⟩
        cases same
  · intro value read
    cases j with
    | obj members =>
      unfold Json.at at read
      simp only at read
      split at read
      · rename_i found present
        refine ⟨?_, members, rfl⟩
        intro others same
        cases same
        exact ⟨found, present⟩
      · cases read
    | null | bool | int | float | str | arr => cases read

theorem at_completes {j found : Json} {key : String} (read : j.at key = .ok found) : j.lookup? key = some found := by
  cases j with
  | obj members =>
    unfold Json.at at read
    simp only at read
    split at read
    · cases read
      assumption
    · cases read
  | null | bool | int | float | str | arr => cases read

theorem itemsAt_eq {j found : Json} {key : String} (read : j.at key = .ok found) : j.itemsAt key = found.items := by
  rw [itemsAt, at_completes read]
  simp

theorem index_judged (j : Json) (i : ℕ) : Judged Fault.isException (j.index i) [j.indexCheck i] := by
  apply judged_single
  · intro fault failed
    cases j with
    | arr items =>
      by_cases inside : i < items.length
      · rw [Json.index, QVector.at_natCast items i inside] at failed
        cases failed
      · have undefined : ¬ (Json.indexCheck (.arr items) i).Defined := fun defined => inside (defined items rfl)
        have missing : QVector.at items (i : ℤ) = .error .outOfRange := by
          simp [QVector.at, List.getElem?_eq_none (Nat.le_of_not_lt inside)]
        rw [Json.index, missing] at failed
        cases failed
        exact ⟨iff_of_false Bool.false_ne_true undefined, fun both => undefined both.1⟩
    | null | bool | int | float | str | obj =>
      cases failed
      refine ⟨iff_of_true rfl ?_, ?_⟩
      · intro items same
        cases same
      · rintro ⟨_, items, same⟩
        cases same
  · intro value read
    cases j with
    | arr items =>
      obtain ⟨_, found⟩ := QVector.at_completes read
      refine ⟨?_, items, rfl⟩
      intro others same
      cases same
      exact (List.getElem?_eq_some_iff.mp found).1
    | null | bool | int | float | str | obj => cases read

theorem index_completes {j found : Json} {i : ℕ} (read : j.index i = .ok found) : j.item? i = some found := by
  cases j with
  | arr items => exact (QVector.at_completes read).2
  | null | bool | int | float | str | obj => cases read

theorem getText_judged (j : Json) : Judged Fault.isException j.getText [j.textCheck] := by
  apply judged_single
  · intro fault failed
    cases j with
    | str value => cases failed
    | null | bool | int | float | arr | obj =>
      cases failed
      refine ⟨iff_of_true rfl trivial, ?_⟩
      rintro ⟨_, value, same⟩
      cases same
  · intro value read
    cases j with
    | str value => exact ⟨trivial, value, rfl⟩
    | null | bool | int | float | arr | obj => cases read

theorem getDouble_judged (j : Json) : Judged Fault.isException j.getDouble [j.doubleCheck] := by
  apply judged_single
  · intro fault failed
    cases j with
    | int value | float value => cases failed
    | null | bool | str | arr | obj =>
      cases failed
      refine ⟨iff_of_true rfl trivial, ?_⟩
      rintro ⟨_, ⟨value, same⟩ | ⟨value, same⟩⟩ <;> cases same
  · intro value read
    cases j with
    | int value => exact ⟨trivial, .inl ⟨value, rfl⟩⟩
    | float value => exact ⟨trivial, .inr ⟨value, rfl⟩⟩
    | null | bool | str | arr | obj => cases read

theorem getInt_judged (j : Json) : Judged Fault.isException j.getInt [j.intCheck] := by
  apply judged_single
  · intro fault failed
    cases j with
    | int value | bool value => cases failed
    | float value =>
      rw [Json.getInt] at failed
      split at failed
      · cases failed
      · rename_i outside
        cases failed
        have undefined : ¬ (Json.intCheck (.float value)).Defined := fun defined => outside (defined value rfl)
        exact ⟨iff_of_false Bool.false_ne_true undefined, fun both => undefined both.1⟩
    | null | str | arr | obj =>
      cases failed
      refine ⟨iff_of_true rfl ?_, ?_⟩
      · intro value same
        cases same
      · rintro ⟨_, ⟨value, same⟩ | ⟨value, same⟩ | ⟨value, same⟩⟩ <;> cases same
  · intro n read
    cases j with
    | int value =>
      refine ⟨?_, .inl ⟨value, rfl⟩⟩
      intro other same
      cases same
    | bool value =>
      refine ⟨?_, .inr (.inr ⟨value, rfl⟩)⟩
      intro other same
      cases same
    | float value =>
      rw [Json.getInt] at read
      split at read
      · rename_i inside
        refine ⟨?_, .inr (.inl ⟨value, rfl⟩)⟩
        intro other same
        cases same
        exact inside
      · cases read
    | null | str | arr | obj => cases read

theorem member_judged {α : Type} {get : Json → Except Fault α} {valueCheck : Json → Check}
    (judged : ∀ j, Judged Fault.isException (get j) [valueCheck j]) (default : α) (j : Json) (key source : String) :
    Judged Fault.isException (j.member get default key source) (j.memberChecks valueCheck key source) := by
  apply (at_judged j key).bind
  intro found read
  rw [at_completes read]
  simp only
  split
  · exact judged_ok default
  · cases j with
    | obj members =>
      unfold Json.value
      change Judged _ _ ((members.lookup source).toList.map valueCheck)
      simp only
      cases members.lookup source with
      | none => exact judged_ok default
      | some value => exact judged value
    | null | bool | int | float | str | arr => cases read

theorem text_judged (j : Json) (key : String) : Judged Fault.isException (j.text key) (j.textChecks key) :=
  member_judged getText_judged "" j key key

theorem integer_judged (j : Json) (key : String) : Judged Fault.isException (j.integer key) (j.integerChecks key) :=
  member_judged getInt_judged 0 j key key

theorem coordinate_judged {α : Type} (j : Json) (i : ℕ) {rest : ℚ → Except Fault α} {later : List Check}
    (next : ∀ value, Judged Fault.isException (rest value) later) :
    Judged Fault.isException (do
      let found ← j.index i
      let value ← found.getDouble
      rest value) (j.coordinateChecks i ++ later) := by
  have checks : j.coordinateChecks i ++ later = [j.indexCheck i] ++ ((j.item? i).toList.map doubleCheck ++ later) := rfl
  rw [checks]
  apply (index_judged j i).bind
  intro found read
  rw [index_completes read]
  exact (getDouble_judged found).bind fun value _ => next value

end Judged

end Json

section Judged

theorem pointFromJson_judged (j : Json) : Judged Fault.isException (pointFromJson j) j.pointChecks := by
  apply j.coordinate_judged 0
  intro x
  rw [← List.append_nil (j.coordinateChecks 1)]
  apply j.coordinate_judged 1
  intro y
  exact judged_ok _

theorem shapeFromJson_judged (j : Json) : Judged Fault.isException (shapeFromJson j) j.shapeChecks := by
  apply (j.text_judged "label").bind
  intro label _
  apply (j.text_judged "description").bind
  intro description _
  apply (j.text_judged "shape_type").bind
  intro shapeType _
  apply (j.text_judged "flags").bind
  intro flags _
  apply (j.integer_judged "group_id").bind
  intro groupId _
  apply (j.integer_judged "mask").bind
  intro mask _
  apply (j.at_judged "points").bind
  intro points read
  rw [Json.itemsAt_eq read]
  exact (judged_mapM pointFromJson_judged points.items).map _

theorem fetch_bind_judged {α β : Type} {result : Except Fault α} {rest : α → Filling β} {checks later : List Check}
    (judged : Judged Fault.isException result checks)
    (next : ∀ value, result = .ok value → JudgedRun Fault.isException (rest value) later) :
    JudgedRun Fault.isException (fetch result >>= rest) (checks ++ later) := by
  apply (judgedRun_check judged).bind
  intro value state middle ran
  exact next value (Prod.mk.inj ran).1

theorem modify_bind_judged {β : Type} (f : RootS → RootS) {rest : Filling β} {later : List Check}
    (next : JudgedRun Fault.isException rest later) :
    JudgedRun Fault.isException ((modify f : Filling PUnit) >>= fun _ => rest) later :=
  (judgedRun_modify f).bind fun _ _ _ _ => next

theorem shapesFromJson_judged (items : List Json) :
    JudgedRun Fault.isException (shapesFromJson items) (items.flatMap Json.shapeChecks) := by
  induction items with
  | nil => exact judgedRun_pure ()
  | cons item items ih =>
    rw [List.flatMap_cons]
    apply fetch_bind_judged (shapeFromJson_judged item)
    intro shape _
    exact modify_bind_judged _ ih

theorem imageFromJson_judged (j : Json) : JudgedRun Fault.isException (imageFromJson j) j.imageChecks := by
  apply fetch_bind_judged (j.text_judged "imagePath")
  intro imagePath _
  apply modify_bind_judged
  apply fetch_bind_judged (j.text_judged "imageData")
  intro imageData _
  apply modify_bind_judged
  apply fetch_bind_judged (j.integer_judged "imageHeight")
  intro height _
  apply modify_bind_judged
  rw [← List.append_nil (j.integerChecks "imageWidth")]
  apply fetch_bind_judged (j.integer_judged "imageWidth")
  intro width _
  exact judgedRun_modify _

theorem rootFromJson_judged (j : Json) : JudgedRun Fault.isException (rootFromJson j) j.rootChecks := by
  apply fetch_bind_judged (j.text_judged "version")
  intro version _
  apply modify_bind_judged
  apply fetch_bind_judged (Json.member_judged Json.getText_judged "" j "flags" "version")
  intro flags _
  apply modify_bind_judged
  apply fetch_bind_judged (j.at_judged "shapes")
  intro shapes read
  rw [Json.itemsAt_eq read]
  exact (shapesFromJson_judged shapes.items).bind fun _ _ _ _ => imageFromJson_judged j

end Judged

section Decoded

variable {j : Json} {before root : RootS} {shape : ShapeS}

structure ShapeDecoded (j : Json) (shape : ShapeS) : Prop where
  label : j.text "label" = .ok shape.label
  description : j.text "description" = .ok shape.description
  shapeType : j.text "shape_type" = .ok shape.shapeType
  flags : j.text "flags" = .ok shape.flags
  groupId : j.integer "group_id" = .ok shape.groupId
  mask : j.integer "mask" = .ok shape.mask
  points : (j.itemsAt "points").mapM pointFromJson = .ok shape.points

theorem shapeFromJson_decoded (read : shapeFromJson j = .ok shape) : ShapeDecoded j shape := by
  obtain ⟨label, labelRead, read⟩ := bind_completes read
  obtain ⟨description, descriptionRead, read⟩ := bind_completes read
  obtain ⟨shapeType, shapeTypeRead, read⟩ := bind_completes read
  obtain ⟨flags, flagsRead, read⟩ := bind_completes read
  obtain ⟨groupId, groupIdRead, read⟩ := bind_completes read
  obtain ⟨mask, maskRead, read⟩ := bind_completes read
  obtain ⟨found, foundRead, read⟩ := bind_completes read
  obtain ⟨points, pointsRead, read⟩ := bind_completes read
  cases read
  exact ⟨labelRead, descriptionRead, shapeTypeRead, flagsRead, groupIdRead, maskRead,
    by rw [Json.itemsAt_eq foundRead]; exact pointsRead⟩

/-- The root holds what is read from the document, with the shapes after those it had before. -/
structure Decoded (j : Json) (before root : RootS) : Prop where
  version : j.text "version" = .ok root.version
  flags : j.member Json.getText "" "flags" "version" = .ok root.flags
  shapes : ∃ read, (j.itemsAt "shapes").mapM shapeFromJson = .ok read ∧ root.shapes = before.shapes ++ read
  imagePath : j.text "imagePath" = .ok root.imagePath
  imageData : j.text "imageData" = .ok root.imageData
  imageHeight : ∃ height, j.integer "imageHeight" = .ok height ∧ root.imageHeight = stdToString height
  imageWidth : ∃ width, j.integer "imageWidth" = .ok width ∧ root.imageWidth = stdToString width

theorem fetch_bind_run {α β : Type} (result : Except Fault α) (rest : α → Filling β) (root : RootS) :
    (fetch result >>= rest).run root = match result with
      | .ok value => (rest value).run root
      | .error fault => (.error fault, root) := by
  rw [run_bind]
  cases result <;> rfl

theorem fetch_bind_completes {α β : Type} {result : Except Fault α} {rest : α → Filling β} {value : β}
    (done : (fetch result >>= rest).run before = (.ok value, root)) :
    ∃ found, result = .ok found ∧ (rest found).run before = (.ok value, root) := by
  rw [fetch_bind_run] at done
  split at done
  · exact ⟨_, rfl, done⟩
  · cases done

theorem modify_bind_run {β : Type} (f : RootS → RootS) (rest : Filling β) (root : RootS) :
    ((modify f : Filling PUnit) >>= fun _ => rest).run root = rest.run (f root) := rfl

theorem shapesFromJson_completes {items : List Json} (ran : (shapesFromJson items).run before = (.ok (), root)) :
    ∃ shapes, items.mapM shapeFromJson = .ok shapes ∧ root = { before with shapes := before.shapes ++ shapes } := by
  induction items generalizing before with
  | nil =>
    cases ran
    exact ⟨[], rfl, by rw [List.append_nil]⟩
  | cons item items ih =>
    obtain ⟨shape, read, ran⟩ := fetch_bind_completes ran
    rw [modify_bind_run] at ran
    obtain ⟨shapes, others, rfl⟩ := ih ran
    refine ⟨shape :: shapes, ?_, ?_⟩
    · rw [List.mapM_cons, read, others]
      rfl
    · simp only [List.append_assoc, List.singleton_append]

theorem rootFromJson_decoded (ran : (rootFromJson j).run before = (.ok (), root)) : Decoded j before root := by
  obtain ⟨version, versionRead, ran⟩ := fetch_bind_completes ran
  rw [modify_bind_run] at ran
  obtain ⟨flags, flagsRead, ran⟩ := fetch_bind_completes ran
  rw [modify_bind_run] at ran
  obtain ⟨found, foundRead, ran⟩ := fetch_bind_completes ran
  obtain ⟨_, middle, shapesRan, ran⟩ := run_bind_completes ran
  obtain ⟨shapes, shapesRead, rfl⟩ := shapesFromJson_completes shapesRan
  rw [← Json.itemsAt_eq foundRead] at shapesRead
  obtain ⟨imagePath, pathRead, ran⟩ := fetch_bind_completes ran
  rw [modify_bind_run] at ran
  obtain ⟨imageData, dataRead, ran⟩ := fetch_bind_completes ran
  rw [modify_bind_run] at ran
  obtain ⟨height, heightRead, ran⟩ := fetch_bind_completes ran
  rw [modify_bind_run] at ran
  obtain ⟨width, widthRead, ran⟩ := fetch_bind_completes ran
  cases ran
  exact ⟨versionRead, flagsRead, ⟨shapes, shapesRead, rfl⟩, pathRead, dataRead, ⟨height, heightRead, rfl⟩,
    ⟨width, widthRead, rfl⟩⟩

theorem readJson_some_cases (j : Json) (root : RootS) :
    (∃ result, (rootFromJson j).run root = (.ok (), result) ∧ readJson (some j) root = .ok (true, result)) ∨
    (∃ fault result, (rootFromJson j).run root = (.error fault, result) ∧
      readJson (some j) root = if fault.isException then .ok (false, result) else .error fault) := by
  rw [readJson]
  rcases (rootFromJson j).run root with ⟨ended, result⟩
  cases ended with
  | ok value => exact .inl ⟨result, rfl, rfl⟩
  | error fault => exact .inr ⟨fault, result, rfl, rfl⟩

theorem readJson_accepts_iff (j : Json) (root : RootS) :
    (∃ result, readJson (some j) root = .ok (true, result)) ↔ Passes j.rootChecks := by
  rw [← (rootFromJson_judged j root).completes]
  rcases readJson_some_cases j root with ⟨result, ran, read⟩ | ⟨fault, result, ran, read⟩
  · rw [ran, read]
    exact iff_of_true ⟨result, rfl⟩ ⟨(), rfl⟩
  · rw [ran, read]
    refine iff_of_false ?_ ?_
    · rintro ⟨other, accepted⟩
      split at accepted <;> cases accepted
    · rintro ⟨value, done⟩
      cases done

theorem readJson_returns_iff (j : Json) (root : RootS) :
    (∃ answer result, readJson (some j) root = .ok (answer, result)) ↔ Gapless j.rootChecks := by
  rw [← (rootFromJson_judged j root).returns]
  rcases readJson_some_cases j root with ⟨result, ran, read⟩ | ⟨fault, result, ran, read⟩
  · rw [ran, read]
    exact iff_of_true ⟨true, result, rfl⟩ fun fault failed => by cases failed
  · rw [ran, read]
    constructor
    · rintro ⟨answer, other, returned⟩ raised same
      cases same
      split at returned
      · assumption
      · cases returned
    · intro caught
      rw [if_pos (caught fault rfl)]
      exact ⟨false, result, rfl⟩

end Decoded

section Tolerance

variable {j : Json} {before root : RootS} {shape : ShapeS}

structure ShapeDefaulted (j : Json) (shape : ShapeS) : Prop where
  label : j.Missing "label" → shape.label = ""
  description : j.Missing "description" → shape.description = ""
  shapeType : j.Missing "shape_type" → shape.shapeType = ""
  flags : j.Missing "flags" → shape.flags = ""
  groupId : j.Missing "group_id" → shape.groupId = 0
  mask : j.Missing "mask" → shape.mask = 0
  points : j.Missing "points" → shape.points = []

/-- What the document lacks has its default value, in the root and in every shape read into it. -/
structure Defaulted (j : Json) (before root : RootS) : Prop where
  version : j.Missing "version" → root.version = ""
  flags : j.Missing "flags" → root.flags = ""
  shapes : ∃ read, root.shapes = before.shapes ++ read ∧ List.Forall₂ ShapeDefaulted (j.itemsAt "shapes") read
  imagePath : j.Missing "imagePath" → root.imagePath = ""
  imageData : j.Missing "imageData" → root.imageData = ""
  imageHeight : j.Missing "imageHeight" → root.imageHeight = "0"
  imageWidth : j.Missing "imageWidth" → root.imageWidth = "0"

/-- The reader answers, and it answers `true` only with the defaults set. -/
def Tolerated (j : Json) (root : RootS) : Prop :=
  ∃ answer result, readJson (some j) root = .ok (answer, result) ∧ (answer = true → Defaulted j root result)

theorem member_missing {α : Type} {get : Json → Except Fault α} {default value : α} {key source : String}
    (read : j.member get default key source = .ok value) (missing : j.Missing key) : value = default := by
  obtain ⟨found, present, rest⟩ := bind_completes read
  have looked := Json.at_completes present
  rcases missing with absent | null
  · rw [absent] at looked
    cases looked
  · obtain rfl := Option.some.inj (null.symm.trans looked)
    cases rest
    rfl

theorem itemsAt_missing {key : String} (missing : j.Missing key) : j.itemsAt key = [] := by
  rw [Json.itemsAt]
  rcases missing with absent | null
  · rw [absent]
    rfl
  · rw [null]
    rfl

theorem ShapeDecoded.defaulted (decoded : ShapeDecoded j shape) : ShapeDefaulted j shape where
  label := member_missing decoded.label
  description := member_missing decoded.description
  shapeType := member_missing decoded.shapeType
  flags := member_missing decoded.flags
  groupId := member_missing decoded.groupId
  mask := member_missing decoded.mask
  points := by
    intro missing
    have read := decoded.points
    rw [itemsAt_missing missing] at read
    exact (Except.ok.inj read).symm

theorem Decoded.defaulted (decoded : Decoded j before root) : Defaulted j before root where
  version := member_missing decoded.version
  flags := member_missing decoded.flags
  shapes := by
    obtain ⟨read, done, joined⟩ := decoded.shapes
    refine ⟨read, joined, (mapM_forall₂ done).imp ?_⟩
    intro item shape made
    exact (shapeFromJson_decoded made).defaulted
  imagePath := member_missing decoded.imagePath
  imageData := member_missing decoded.imageData
  imageHeight := by
    intro missing
    obtain ⟨height, read, text⟩ := decoded.imageHeight
    rw [text, member_missing read missing]
    rfl
  imageWidth := by
    intro missing
    obtain ⟨width, read, text⟩ := decoded.imageWidth
    rw [text, member_missing read missing]
    rfl

theorem readJson_decoded {j : Json} {root result : RootS} (read : readJson (some j) root = .ok (true, result)) :
    Decoded j root result := by
  rcases readJson_some_cases j root with ⟨other, ran, accepted⟩ | ⟨fault, other, _, failed⟩
  · rw [accepted] at read
    cases read
    exact rootFromJson_decoded ran
  · rw [failed] at read
    split at read <;> cases read

/-- The reader deals with exactly the documents in which no key, no coordinate and no fitting number is lacking before
    a value of a wrong type is met. -/
theorem readJson_tolerates_iff (j : Json) (root : RootS) : Tolerated j root ↔ Gapless j.rootChecks := by
  rw [← readJson_returns_iff j root]
  constructor
  · rintro ⟨answer, result, read, _⟩
    exact ⟨answer, result, read⟩
  · rintro ⟨answer, result, read⟩
    refine ⟨answer, result, read, ?_⟩
    rintro rfl
    exact (readJson_decoded read).defaulted

/-- A document without the member `version`. -/
theorem empty_object_read :
    readJson (some (.obj [])) .empty = .error .outOfRange ∧ ¬ Tolerated (.obj []) .empty := by
  have undefined : readJson (some (.obj [])) .empty = .error .outOfRange := rfl
  refine ⟨undefined, ?_⟩
  rintro ⟨answer, result, read, _⟩
  rw [undefined] at read
  cases read

end Tolerance

end XYAnnotation
