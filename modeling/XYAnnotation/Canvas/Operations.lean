import XYAnnotation.Canvas.Base

namespace XYAnnotation.CanvasBase

@[simp] theorem modifyShape_shapeList (c : CanvasBase) (shape : ShapeId) (f : Shape → Shape) :
    (c.modifyShape shape f).shapeList = c.shapeList := rfl

@[simp] theorem modifyShape_heap_same (c : CanvasBase) (shape : ShapeId) (f : Shape → Shape) :
    (c.modifyShape shape f).heap shape = f (c.heap shape) := by simp [modifyShape]

theorem modifyShape_heap_other (c : CanvasBase) (shape : ShapeId) (f : Shape → Shape) {other : ShapeId}
    (different : other ≠ shape) : (c.modifyShape shape f).heap other = c.heap other := by
  simp [modifyShape, different]

theorem numbered_injective (name : String) : Function.Injective (numbered name) := by
  intro i j same
  unfold numbered at same
  have append : ∀ n, name ++ QString.number n ≠ name := by
    intro n h
    have shorter := congrArg String.length h
    have positive : 0 < (QString.number n).length := Nat.length_repr_pos
    rw [String.length_append] at shorter
    omega
  split at same <;> split at same
  · exact QString.number_injective (String.append_right_inj name |>.mp same)
  · exact absurd same (append i)
  · exact absurd same.symm (append j)
  · omega

theorem not_mem_names {c : CanvasBase} {shapeName : String}
    (found : c.names.findIdx? (· == shapeName) = none) : shapeName ∉ c.names := by
  intro member
  have differs := List.findIdx?_eq_none_iff.mp found shapeName member
  simp at differs

theorem indexOf_eq_neg_one (c : CanvasBase) (shapeName : String) :
    c.indexOf shapeName = -1 ↔ shapeName ∉ c.names := by
  unfold indexOf
  cases found : c.names.findIdx? (· == shapeName) with
  | none => simpa using not_mem_names found
  | some i =>
    obtain ⟨bound, hit, _⟩ := List.findIdx?_eq_some_iff_getElem.mp found
    have here : c.names[i] = shapeName := by simpa using hit
    have member : shapeName ∈ c.names := here ▸ List.getElem_mem bound
    simp only [member, not_true, iff_false]
    omega

theorem names_length (c : CanvasBase) : c.names.length = c.shapeList.length := List.length_map _

/-- The loop of `uniqueName` stops: within one candidate more than there are shapes it finds a name that is not in
    use, and the tests before it all failed. More rounds would not change the result. -/
theorem uniqueName_stops (c : CanvasBase) (name : String) :
    ∃ n ≤ c.shapeList.length, c.uniqueName name = numbered name n ∧
      c.indexOf (numbered name n) = -1 ∧ (∀ m < n, c.indexOf (numbered name m) ≠ -1) ∧
      ∀ rounds ≥ c.shapeList.length, Library.firstFree (fun i => c.indexOf (numbered name i) == -1) rounds 0 = n := by
  obtain ⟨unused, bound, outside⟩ := Library.exists_unused _ (numbered_injective name) c.names
  rw [names_length] at bound
  have free : (c.indexOf (numbered name unused) == -1) = true := by
    rw [beq_iff_eq, indexOf_eq_neg_one]
    exact outside
  let candidates := Library.firstFree (fun i => c.indexOf (numbered name i) == -1) c.shapeList.length 0
  have found := Library.firstFree_free (fun i => c.indexOf (numbered name i) == -1) c.shapeList.length 0
    ⟨unused, Nat.zero_le _, by omega, free⟩
  refine ⟨candidates, ?_, rfl, ?_, ?_, ?_⟩
  · have limit := Library.firstFree_le (fun i => c.indexOf (numbered name i) == -1) c.shapeList.length 0
    omega
  · exact beq_iff_eq.mp found
  · intro m below same
    have used := Library.firstFree_least _ _ _ (Nat.zero_le m) below
    rw [same] at used
    cases used
  · intro rounds enough
    exact Library.firstFree_fuel ⟨unused, bound, free⟩ enough

theorem uniqueName_not_mem (c : CanvasBase) (name : String) : c.uniqueName name ∉ c.names := by
  obtain ⟨n, _, unique, absent, _⟩ := c.uniqueName_stops name
  rw [unique, ← indexOf_eq_neg_one]
  exact absent

def uniqueIn (used : List String) (name : String) : String :=
  numbered name (Library.firstFree (fun i => decide (numbered name i ∉ used)) used.length 0)

theorem uniqueName_eq (c : CanvasBase) (name : String) : c.uniqueName name = uniqueIn c.names name := by
  have lookups : (fun i => c.indexOf (numbered name i) == -1) =
      fun i => decide (numbered name i ∉ c.names) := by
    funext i
    rw [Bool.eq_iff_iff]
    simpa using indexOf_eq_neg_one c (numbered name i)
  rw [uniqueName, uniqueIn, lookups, names_length]

theorem setCurrentShape_eq (c : CanvasBase) (index : ℤ)
    (valid : index = -1 ∨ 0 ≤ index ∧ index < c.shapeList.length) :
    c.setCurrentShape index = .ok { c with currentIndex := index } := by
  unfold setCurrentShape currentShape
  by_cases absent : index = -1
  · simp [absent, Bind.bind, Except.bind]
  · have range : 0 ≤ index ∧ index < c.shapeList.length := by
      rcases valid with h | h
      · exact absurd h absent
      · exact h
    have bound : index.toNat < c.shapeList.length := by omega
    simp [absent, range.1, QVector.at, List.getElem?_eq_getElem bound, Bind.bind, Except.bind]

def appended (c : CanvasBase) (shape : ShapeId) : CanvasBase :=
  { c with
    heap := Function.update c.heap shape
      ((c.heap shape).setName (c.uniqueName (Shape.typeToString (c.heap shape).type)))
    shapeList := c.shapeList ++ [shape]
    currentIndex := c.shapeList.length }

theorem addShape_eq (c : CanvasBase) (shape : ShapeId) : c.addShape (some shape) =
    .ok (c.appended shape, c.uniqueName (Shape.typeToString (c.heap shape).type)) := by
  have last : ((c.shapeList ++ [shape]).length : ℤ) - 1 = c.shapeList.length := by simp
  simp only [addShape, modifyShape_shapeList]
  rw [last, setCurrentShape_eq _ _ (.inr ⟨by omega, by simp [modifyShape]⟩)]
  rfl

def indexAfterRemoval (current : ℤ) (i count : ℕ) : ℤ :=
  if (i : ℤ) ≤ current then if i + 1 = count then i - 1 else i else current

def removedAt (c : CanvasBase) (i : ℕ) : CanvasBase :=
  { c with
    shapeList := c.shapeList.eraseIdx i
    currentIndex := indexAfterRemoval c.currentIndex i c.shapeList.length }

theorem deleteShape_absent (c : CanvasBase) (shapeName : String) (absent : shapeName ∉ c.names) :
    c.deleteShape shapeName = .ok c := by
  simp [deleteShape, (indexOf_eq_neg_one c shapeName).mpr absent]

theorem deleteShape_found (c : CanvasBase) (shapeName : String) (i : ℕ)
    (found : c.names.findIdx? (· == shapeName) = some i) :
    i < c.shapeList.length ∧ c.deleteShape shapeName = .ok (c.removedAt i) := by
  have bound : i < c.shapeList.length := by
    obtain ⟨bound, _⟩ := List.findIdx?_eq_some_iff_getElem.mp found
    rwa [names_length] at bound
  have index : c.indexOf shapeName = i := by simp [indexOf, found]
  have count : ((c.shapeList.eraseIdx i).length : ℤ) = c.shapeList.length - 1 := by
    rw [List.length_eraseIdx_of_lt bound]
    omega
  refine ⟨bound, ?_⟩
  unfold deleteShape removedAt indexAfterRemoval
  simp only [index, Int.toNat_natCast, count]
  rw [if_neg (by omega)]
  split
  · by_cases last : i + 1 = c.shapeList.length
    · rw [if_pos (by omega), if_pos last, setCurrentShape_eq]
      simp only [count]
      omega
    · rw [if_neg (by omega), if_neg last, setCurrentShape_eq]
      simp only [count]
      omega
  · rfl

theorem deleteShape_cases (c : CanvasBase) (shapeName : String) :
    c.deleteShape shapeName = .ok c ∨
      ∃ i < c.shapeList.length, c.deleteShape shapeName = .ok (c.removedAt i) := by
  cases found : c.names.findIdx? (· == shapeName) with
  | none => exact .inl (deleteShape_absent c shapeName (not_mem_names found))
  | some i => exact .inr ⟨i, deleteShape_found c shapeName i found⟩

end XYAnnotation.CanvasBase
