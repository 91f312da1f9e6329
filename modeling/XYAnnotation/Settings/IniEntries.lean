import XYAnnotation.Settings.IniFile

namespace XYAnnotation

open Library

inductive IniEntry
  | head (label : String)
  | pair (key value : String)
  deriving DecidableEq

namespace IniEntry

def isPair : IniEntry → Bool
  | head _ => false
  | pair _ _ => true

def valueOf (key : String) : IniEntry → Option String
  | head _ => none
  | pair label value => if label = key then some value else none

/-- The value a file gives to a key: the first one between the first head of the section and the next head, and before
    every head where no section is named. -/
def lookup (entries : List IniEntry) (key label : String) : String :=
  let scope := if label = "" then entries else (entries.dropWhile (· ≠ head label)).tail
  ((scope.takeWhile isPair).findSome? (valueOf key)).getD ""

end IniEntry

def readEntry (line : List Char) : Option IniEntry :=
  match readLine line with
  | .sectionHead label _ => some (.head (String.ofList label))
  | .keyValue key value _ => some (.pair (String.ofList key) (String.ofList value))
  | .blank | .remark | .malformed => none

def readEntries (text : List Char) : List IniEntry := (pieces '\n' text).filterMap readEntry

namespace IniNode

open IniEntry

def pairs (nodes : List IniNode) : List IniEntry :=
  nodes.filterMap fun node => if node.type = .keyValue then some (.pair node.label node.value) else none

/-- What a node and the nodes under it say. -/
def entries (nodes : List IniNode) : List IniEntry :=
  nodes.flatMap fun node =>
    match node.type with
    | .sectionHead => .head node.label :: pairs node.children
    | .keyValue => [.pair node.label node.value]
    | .unknown | .root | .div | .span => []

/-- No key stands behind a section. -/
def Sorted (nodes : List IniNode) : Prop :=
  (nodes.map IniNode.type).Pairwise fun a b => a = .sectionHead → b ≠ .keyValue

variable {node : IniNode} {nodes more : List IniNode} {key label : String}

theorem pairs_cons : pairs (node :: nodes) =
    if node.type = .keyValue then .pair node.label node.value :: pairs nodes else pairs nodes := by
  by_cases pair : node.type = .keyValue
  · simp [pairs, pair]
  · simp [pairs, pair]

theorem pairs_append : pairs (nodes ++ more) = pairs nodes ++ pairs more := List.filterMap_append

theorem entries_cons : entries (node :: nodes) = entries [node] ++ entries nodes := by simp [entries]

theorem entries_append : entries (nodes ++ more) = entries nodes ++ entries more := List.flatMap_append

theorem entries_head (type : node.type = .sectionHead) : entries [node] = .head node.label :: pairs node.children := by
  simp [entries, type]

theorem entries_pair (type : node.type = .keyValue) : entries [node] = [.pair node.label node.value] := by
  simp [entries, type]

theorem entries_other (noHead : node.type ≠ .sectionHead) (noPair : node.type ≠ .keyValue) : entries [node] = [] := by
  cases type : node.type with
  | sectionHead => exact absurd type noHead
  | keyValue => exact absurd type noPair
  | unknown => simp [entries, type]
  | root => simp [entries, type]
  | div => simp [entries, type]
  | span => simp [entries, type]

theorem isPair_pairs : ∀ entry ∈ pairs nodes, isPair entry = true := by
  intro entry member
  rw [pairs, List.mem_filterMap] at member
  obtain ⟨node, -, same⟩ := member
  by_cases pair : node.type = .keyValue
  · rw [if_pos pair] at same
    cases same
    rfl
  · rw [if_neg pair] at same
    cases same

theorem head_not_mem_pairs : IniEntry.head label ∉ pairs nodes := fun member => by
  cases isPair_pairs _ member

theorem pairs_of_sorted (noPair : ∀ node ∈ nodes, node.type ≠ .keyValue) : pairs nodes = [] := by
  rw [pairs, List.filterMap_eq_nil_iff]
  intro node member
  rw [if_neg (noPair node member)]

theorem takeWhile_entries (noPair : ∀ node ∈ nodes, node.type ≠ .keyValue) : (entries nodes).takeWhile isPair = [] := by
  induction nodes with
  | nil => rfl
  | cons node nodes ih =>
    have rest := ih fun node member => noPair node (List.mem_cons_of_mem _ member)
    rw [entries_cons]
    by_cases head : node.type = .sectionHead
    · rw [entries_head head]
      rfl
    · rw [entries_other head (noPair node List.mem_cons_self), List.nil_append, rest]

theorem sorted_cons : Sorted (node :: nodes) ↔
    (node.type = .sectionHead → ∀ other ∈ nodes, other.type ≠ .keyValue) ∧ Sorted nodes := by
  rw [Sorted, List.map_cons, List.pairwise_cons, ← Sorted]
  simp only [List.mem_map, forall_exists_index, and_imp, forall_apply_eq_imp_iff₂]
  constructor
  · rintro ⟨first, rest⟩
    exact ⟨fun head other member => first other member head, rest⟩
  · rintro ⟨first, rest⟩
    exact ⟨fun other member head => first head other member, rest⟩

theorem valueAt_eq (node : IniNode) (key : String) :
    node.valueAt key = ((pairs node.children).findSome? (valueOf key)).getD "" := by
  unfold valueAt get
  induction node.children with
  | nil => rfl
  | cons child children ih =>
    rw [pairs_cons, List.find?_cons]
    by_cases pair : child.type = .keyValue
    · rw [if_pos pair, List.findSome?_cons, valueOf]
      by_cases same : child.label = key
      · rw [if_pos same, named_iff.mpr ⟨pair, same⟩]
        rfl
      · have other : named key .keyValue child = false := Bool.eq_false_iff.mpr fun fits => same (named_iff.mp fits).2
        rw [if_neg same, other]
        exact ih
    · have other : named key .keyValue child = false := Bool.eq_false_iff.mpr fun fits => pair (named_iff.mp fits).1
      rw [if_neg pair, other]
      exact ih

theorem takeWhile_sorted (sorted : Sorted nodes) : (entries nodes).takeWhile isPair = pairs nodes := by
  induction nodes with
  | nil => rfl
  | cons node nodes ih =>
    obtain ⟨first, rest⟩ := sorted_cons.mp sorted
    rw [entries_cons, pairs_cons]
    by_cases pair : node.type = .keyValue
    · rw [entries_pair pair, if_pos pair, List.cons_append, List.nil_append, List.takeWhile_cons, ih rest]
      rfl
    · rw [if_neg pair]
      by_cases head : node.type = .sectionHead
      · rw [entries_head head, pairs_of_sorted (first head)]
        rfl
      · rw [entries_other head pair, List.nil_append, ih rest]

theorem takeWhile_scope (sorted : Sorted nodes) (label : String) :
    ((entries nodes).dropWhile (· ≠ .head label)).tail.takeWhile isPair =
      pairs (((nodes.find? (named label .sectionHead)).map IniNode.children).getD []) := by
  induction nodes with
  | nil => rfl
  | cons node nodes ih =>
    obtain ⟨first, rest⟩ := sorted_cons.mp sorted
    rw [entries_cons, List.find?_cons]
    by_cases head : node.type = .sectionHead
    · rw [entries_head head]
      by_cases same : node.label = label
      · rw [named_iff.mpr ⟨head, same⟩, same, List.cons_append, List.dropWhile_cons, if_neg (by simp), List.tail_cons,
          List.takeWhile_append_of_pos isPair_pairs, takeWhile_entries (first head), List.append_nil]
        rfl
      · have other : named label .sectionHead node = false := Bool.eq_false_iff.mpr fun fits => same (named_iff.mp fits).2
        have apart : ∀ entry ∈ IniEntry.head node.label :: pairs node.children,
            decide (entry ≠ IniEntry.head label) = true := by
          intro entry member
          rw [decide_eq_true_iff]
          rintro rfl
          rcases List.mem_cons.mp member with equal | member
          · exact same (IniEntry.head.inj equal).symm
          · exact head_not_mem_pairs member
        rw [other, List.dropWhile_append_of_pos apart]
        exact ih rest
    · have other : named label .sectionHead node = false := Bool.eq_false_iff.mpr fun fits => head (named_iff.mp fits).1
      have apart : ∀ entry ∈ entries [node], decide (entry ≠ IniEntry.head label) = true := by
        intro entry member
        by_cases pair : node.type = .keyValue
        · rw [entries_pair pair, List.mem_singleton] at member
          simp [member]
        · rw [entries_other head pair] at member
          cases member
      rw [other, List.dropWhile_append_of_pos apart]
      exact ih rest

/-- `GetValue` finds the value that the entries of the tree give. -/
theorem read_eq_lookup {root : IniNode} (sorted : Sorted root.children) (key label : String) :
    root.read key label = lookup (entries root.children) key label := by
  rw [IniNode.read, lookup]
  by_cases atRoot : label = ""
  · rw [if_pos atRoot, takeWhile_sorted sorted, ← valueAt_eq, scope, if_pos atRoot, Option.getD_some]
  · rw [if_neg atRoot, takeWhile_scope sorted, valueAt_eq, scope, if_neg atRoot, get]
    cases root.children.find? (named label .sectionHead) with
    | none => rfl
    | some node => rfl

end IniNode

end XYAnnotation
