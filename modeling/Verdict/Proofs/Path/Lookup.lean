import Mathlib.Data.List.Basic
import Verdict.Path.Lookup
import Verdict.Proofs.Json.Members
import Verdict.Proofs.Path.Grammar
import Verdict.Proofs.Path.Nodes

/-!
# Dotted names are paths

A dotted name of plain names and indices is also the text of a path. Where looking the name up
finds a value, the path selects this value and no other. For a name at a list the two go different
ways, the one asking the list for an element and the other every element for a member; but only a
number finds anything in a list, and a number is an index for both.
-/

namespace Verdict.Path

/-! ## Dotted names -/

/-- A plain name, or an index that fits into 64 bits with a sign. -/
inductive Part where
  | name (name : PlainName)
  | index (n : Nat) (bound : n < 2 ^ 63)

namespace Part

def label : Part → String
  | name s => s.text
  | index n _ => toString n

/-- A name behind a dot, or an index in brackets. -/
def text : Part → String
  | name s => "." ++ s.text
  | index n _ => "[" ++ toString n ++ "]"

def opening : Part → String
  | name s => s.text
  | index n bound => (index n bound).text

def segment : Part → Segment
  | name s => .field s.text
  | index n _ => .index n

end Part

/-- A dotted name. It does not start with the dollar sign that stands for the whole value. -/
structure Dotted where
  first : Part
  rest : List Part
  notRoot : first.label.toList.head? ≠ some '$'

namespace Dotted

def parts (d : Dotted) : List Part :=
  d.first :: d.rest

def text (d : Dotted) : String :=
  d.first.opening ++ String.join (d.rest.map Part.text)

end Dotted

theorem index_natCast {n : Nat} (bound : n < 2 ^ 63) : Index (toString n).toList n :=
  index_toString (n := n) (by omega) (by omega)

namespace Part

theorem toList_name (s : PlainName) : (name s).text.toList = '.' :: s.text.toList :=
  String.toList_append

theorem toList_index {n : Nat} (bound : n < 2 ^ 63) :
    (index n bound).text.toList = '[' :: ((toString n).toList ++ [']']) := by
  rw [text, String.toList_append, String.toList_append, List.append_assoc]
  rfl

theorem label_ne_nil (part : Part) : part.label.toList ≠ [] := by
  cases part with
  | name s => simpa [label] using s.nonempty
  | index n bound => simp [label, Nat.toList_repr]

theorem nameChar_of_mem_label {part : Part} {c : Char} (hc : c ∈ part.label.toList) :
    NameChar c := by
  cases part with
  | name s => exact s.chars c hc
  | index n bound =>
    have hdigit : c.isDigit = true :=
      (Decimal.digits_toDigits n).2 c (by simpa [label, Nat.toList_repr] using hc)
    refine ⟨?_, Text.isBlank_of_isDigit hdigit⟩
    intro hmem
    simp at hmem
    rcases hmem with rfl | rfl | rfl | rfl | rfl | rfl <;> simp at hdigit

end Part

/-! ## The path of a dotted name -/

theorem tail_parts (parts : List Part) :
    Tail (parts.flatMap (·.text.toList)) (parts.map Part.segment) := by
  induction parts with
  | nil => exact .nil
  | cons part parts ih =>
    rw [List.flatMap_cons, List.map_cons]
    cases part with
    | name s =>
      have hname := Plain.name (s.name ih.head)
      rw [String.ofList_toList] at hname
      rw [Part.toList_name]
      exact .plain hname ih
    | index n bound =>
      rw [Part.toList_index, List.cons_append, List.append_assoc]
      exact .bracket (.index (index_natCast bound) _) ih

theorem Dotted.toList_text (d : Dotted) :
    d.text.toList = d.first.opening.toList ++ d.rest.flatMap (·.text.toList) := by
  rw [text, String.toList_append, String.toList_join, List.flatMap_map]

theorem Dotted.spells (d : Dotted) : Spells d.text.toList (d.parts.map Part.segment) := by
  obtain ⟨first, rest, notRoot⟩ := d
  have htail := tail_parts rest
  rw [toList_text]
  cases first with
  | name s =>
    have hname := Plain.name (s.name htail.head)
    rw [String.ofList_toList] at hname
    refine .plain hname ?_ htail
    obtain ⟨c, more, hcons, -⟩ := (s.name htail.head).exists_head
    change s.text.toList.head? ≠ some '$' at notRoot
    change (s.text.toList ++ _).head? ≠ some '$'
    rw [hcons] at notRoot ⊢
    exact notRoot
  | index n bound => exact .bare (tail_parts (.index n bound :: rest))

theorem Part.isBlank_text (part : Part) :
    ∀ c ∈ part.text.toList, Text.isBlank c = false := by
  have hlabel : ∀ c ∈ part.label.toList, Text.isBlank c = false := fun c hc =>
    (nameChar_of_mem_label hc).2
  cases part with
  | name s =>
    rw [toList_name, List.forall_mem_cons]
    exact ⟨rfl, hlabel⟩
  | index n bound =>
    rw [toList_index, List.forall_mem_cons, List.forall_mem_append]
    exact ⟨rfl, hlabel, Text.isBlank_eq_false_of_all rfl⟩

theorem Part.isBlank_opening (part : Part) :
    ∀ c ∈ part.opening.toList, Text.isBlank c = false := by
  cases part with
  | name s => exact fun c hc => (s.chars c hc).2
  | index n bound => exact (index n bound).isBlank_text

theorem Dotted.compile_text (d : Dotted) : compile d.text = .ok ⟨d.parts.map Part.segment⟩ := by
  apply compile_of_spells
  · rw [toList_text, List.forall_mem_append]
    refine ⟨d.first.isBlank_opening, fun c hc => ?_⟩
    obtain ⟨part, -, hc⟩ := List.mem_flatMap.mp hc
    exact part.isBlank_text c hc
  · exact d.spells

/-! ## The parts of a dotted name -/

def unbracketed (cs : List Char) : List Char :=
  (cs.map fun c => if c == '[' then '.' else c).filter (· != ']')

theorem lookupParts_eq (path : String) :
    Json.lookupParts path =
      (((unbracketed path.toList).splitOn '.').filter (!·.isEmpty)).map String.ofList :=
  rfl

theorem unbracketed_append (cs ds : List Char) :
    unbracketed (cs ++ ds) = unbracketed cs ++ unbracketed ds := by
  simp [unbracketed]

theorem unbracketed_of_nameChar {cs : List Char} (h : ∀ c ∈ cs, NameChar c) :
    unbracketed cs = cs := by
  unfold unbracketed
  have hmap : (cs.map fun c => if c == '[' then '.' else c) = cs := by
    refine (List.map_congr_left fun c hc => ?_).trans (List.map_id cs)
    rw [if_neg]
    · rfl
    · rw [beq_iff_eq]
      rintro rfl
      exact (h _ hc).1 (by decide)
  rw [hmap, List.filter_eq_self]
  intro c hc
  rw [bne_iff_ne]
  rintro rfl
  exact (h _ hc).1 (by decide)

theorem Part.unbracketed_text (part : Part) :
    unbracketed part.text.toList = '.' :: part.label.toList := by
  have hlabel : unbracketed part.label.toList = part.label.toList :=
    unbracketed_of_nameChar fun _ hc => nameChar_of_mem_label hc
  cases part with
  | name s =>
    rw [toList_name, ← List.singleton_append, unbracketed_append]
    exact congrArg ('.' :: ·) hlabel
  | index n bound =>
    rw [toList_index, ← List.singleton_append, unbracketed_append, unbracketed_append]
    change '.' :: (unbracketed (index n bound).label.toList ++ []) = _
    rw [hlabel, List.append_nil]

theorem unbracketed_parts (parts : List Part) :
    unbracketed (parts.flatMap (·.text.toList)) =
      parts.flatMap fun part => '.' :: part.label.toList := by
  induction parts with
  | nil => rfl
  | cons part parts ih =>
    rw [List.flatMap_cons, unbracketed_append, part.unbracketed_text, ih, List.flatMap_cons]

theorem dots_eq_intercalate (l : List Char) (parts : List Part) :
    l ++ parts.flatMap (fun part => '.' :: part.label.toList) =
      ['.'].intercalate (l :: parts.map (·.label.toList)) := by
  induction parts generalizing l with
  | nil => simp
  | cons part parts ih =>
    rw [List.map_cons, List.intercalate_cons_cons, ← ih]
    simp

theorem splitOn_dots {l : List Char} (hl : '.' ∉ l) (parts : List Part) :
    (l ++ parts.flatMap fun part => '.' :: part.label.toList).splitOn '.' =
      l :: parts.map (·.label.toList) := by
  rw [dots_eq_intercalate]
  apply List.splitOn_intercalate
  · rw [List.forall_mem_cons]
    refine ⟨hl, fun label hlabel hdot => ?_⟩
    obtain ⟨part, -, rfl⟩ := List.mem_map.mp hlabel
    exact (Part.nameChar_of_mem_label hdot).1 (by decide)
  · simp

theorem filter_labels (parts : List Part) :
    ((parts.map (·.label.toList)).filter (!·.isEmpty)).map String.ofList =
      parts.map Part.label := by
  rw [List.filter_eq_self.mpr]
  · simp
  · intro label hlabel
    obtain ⟨part, -, rfl⟩ := List.mem_map.mp hlabel
    simpa using part.label_ne_nil

theorem Dotted.lookupParts_text (d : Dotted) :
    Json.lookupParts d.text = d.parts.map Part.label := by
  obtain ⟨first, rest, notRoot⟩ := d
  rw [lookupParts_eq, toList_text, unbracketed_append, unbracketed_parts]
  cases first with
  | name s =>
    have hdot : '.' ∉ s.text.toList := fun hmem => (s.chars '.' hmem).1 (by decide)
    have hopening : unbracketed (Part.name s).opening.toList = s.text.toList :=
      unbracketed_of_nameChar s.chars
    rw [hopening, splitOn_dots hdot]
    exact filter_labels (.name s :: rest)
  | index n bound =>
    -- The bracket in front becomes a dot with nothing before it.
    have hopening : unbracketed (Part.index n bound).opening.toList =
        '.' :: (Part.index n bound).label.toList := (Part.index n bound).unbracketed_text
    have hsplit := splitOn_dots (l := []) (by simp) (.index n bound :: rest)
    rw [List.nil_append, List.flatMap_cons] at hsplit
    rw [hopening, hsplit]
    exact filter_labels (.index n bound :: rest)

/-! ## One step of each -/

/-- All lists inside a value are so short that their indices fit into 64 bits with a sign. So is
every list that a memory can hold. -/
def Addressable (v : Json) : Prop :=
  ∀ items, Json.arr items ∈ nodes v → items.length ≤ 2 ^ 63

theorem Addressable.child {v w : Json} (hv : Addressable v) (hw : w ∈ children v) :
    Addressable w :=
  fun items hitems => hv items (nodes_subset_of_mem_children hw hitems)

theorem readIndex_eq (s : String) :
    ∃ ds, (s.toList = ds ∨ s.toList = '+' :: ds) ∧ Json.readIndex s =
      if (ds.isEmpty || !ds.all Decimal.isDigit || decide (Word.unsignedLimit ≤ Decimal.natOf ds))
      then none else some (Decimal.natOf ds) := by
  unfold Json.readIndex
  dsimp only
  split
  · exact ⟨_, Or.inr ‹_›, rfl⟩
  · exact ⟨_, Or.inl rfl, rfl⟩

theorem readIndex_eq_some {s : String} {i : Nat} (h : Json.readIndex s = some i) :
    ∃ ds, Decimal.Digits ds ∧ (s.toList = ds ∨ s.toList = '+' :: ds) ∧
      i = Nat.ofDigitChars 10 ds 0 := by
  obtain ⟨ds, hsign, hread⟩ := readIndex_eq s
  rw [hread] at h
  split at h
  · cases h
  · rename_i hdigits
    cases h
    rw [Bool.not_eq_true, Bool.or_eq_false_iff] at hdigits
    exact ⟨ds, (Decimal.digits_iff ds).mpr hdigits.1, hsign, rfl⟩

theorem readInt64_of_readIndex {s : String} {i : Nat} (h : Json.readIndex s = some i)
    (hi : i < 2 ^ 63) : Decimal.readInt64 s.toList = some (i : Int) := by
  obtain ⟨ds, hds, hsign, rfl⟩ := readIndex_eq_some h
  rw [Decimal.readInt64_eq_some_iff]
  exact ⟨ds, hds, (Decimal.isSigned_iff _).mpr (by omega), Or.inl ⟨hsign, rfl⟩⟩

theorem lookupPart_arr {items : List Json} {w : Json} {label : String}
    (h : Json.lookupPart (.arr items) label = some w) :
    ∃ i, Json.readIndex label = some i ∧ items[i]? = some w :=
  Option.bind_eq_some_iff.mp h

theorem lookupPart_mem_children {v w : Json} {label : String}
    (h : Json.lookupPart v label = some w) : w ∈ children v := by
  cases v with
  | obj members => exact List.mem_map.mpr ⟨_, Members.mem_of_value? h, rfl⟩
  | arr items =>
    obtain ⟨i, -, hw⟩ := lookupPart_arr h
    exact List.mem_of_getElem? hw
  | null => cases h
  | bool => cases h
  | num => cases h
  | str => cases h

/-- An index that a list has is the same for both. -/
theorem element?_of_lookupPart {items : List Json} {w : Json} {label : String}
    (hv : Addressable (.arr items)) (h : Json.lookupPart (.arr items) label = some w) :
    ∃ n, Decimal.readInt64 label.toList = some n ∧ element? items n = some w := by
  obtain ⟨i, hread, hw⟩ := lookupPart_arr h
  have hlength : i < items.length := (List.getElem?_eq_some_iff.mp hw).1
  have hlimit := hv items (mem_nodes_self _)
  refine ⟨i, readInt64_of_readIndex hread (by omega), ?_⟩
  unfold element?
  rw [if_neg (by omega)]
  exact hw

theorem select_of_lookupPart {v w : Json} {part : Part} (hv : Addressable v)
    (h : Json.lookupPart v part.label = some w) : select part.segment v = [w] := by
  cases v with
  | obj members =>
    have hvalue : Members.value? part.label members = some w := h
    cases part with
    | name s => exact congrArg Option.toList hvalue
    | index n bound => exact congrArg Option.toList hvalue
  | arr items =>
    obtain ⟨n, hread, hw⟩ := element?_of_lookupPart hv h
    cases part with
    | name s =>
      change Decimal.readInt64 s.text.toList = some n at hread
      rw [Part.segment, select, selectField, hread]
      exact congrArg Option.toList hw
    | index i bound =>
      have hi := (index_iff.mp (index_natCast bound)).2
      obtain rfl : (i : Int) = n := Option.some.inj (hi.symm.trans hread)
      exact congrArg Option.toList hw
  | null => cases h
  | bool => cases h
  | num => cases h
  | str => cases h

/-! ## The value found -/

theorem foldl_select_of_foldlM {parts : List Part} {v x : Json} (hv : Addressable v)
    (h : (parts.map Part.label).foldlM Json.lookupPart v = some x) :
    (parts.map Part.segment).foldl (fun values s => values.flatMap (select s)) [v] = [x] := by
  induction parts generalizing v with
  | nil =>
    cases h
    rfl
  | cons part parts ih =>
    rw [List.map_cons, List.foldlM_cons, Option.bind_eq_bind, Option.bind_eq_some_iff] at h
    obtain ⟨w, hpart, hparts⟩ := h
    rw [List.map_cons, List.foldl_cons, List.flatMap_singleton, select_of_lookupPart hv hpart]
    exact ih (hv.child (lookupPart_mem_children hpart)) hparts

/-- A dotted name is a path, and what is found under the name is all that the path selects. -/
theorem execute_of_lookup (d : Dotted) {v x : Json} (hv : Addressable v)
    (h : v.lookup d.text = some x) :
    ∃ p, compile d.text = .ok p ∧ p.execute v = [x] ∧ p.first? v = some x := by
  unfold Json.lookup at h
  rw [d.lookupParts_text] at h
  have hexecute : execute ⟨d.parts.map Part.segment⟩ v = [x] := foldl_select_of_foldlM hv h
  exact ⟨_, d.compile_text, hexecute, by rw [first?, hexecute]; rfl⟩

namespace Dotted

def firstItem : Dotted where
  first := .name (.of "items" (by decide) rfl)
  rest := [.index 0 (by decide), .name (.of "name" (by decide) rfl)]
  notRoot := by decide

def oneItem : Json :=
  .obj [("items", .arr [.obj [("name", .str "bolt")]])]

theorem addressable_oneItem : Addressable oneItem := by
  intro items hitems
  simp [oneItem, nodes, nodesOfItems, nodesOfMembers] at hitems
  simp [hitems]

theorem lookup_firstItem : oneItem.lookup firstItem.text = some (.str "bolt") := by
  unfold Json.lookup
  rw [lookupParts_text]
  rfl

end Dotted

theorem execute_of_lookup_firstItem :
    Addressable Dotted.oneItem ∧ Dotted.oneItem.lookup Dotted.firstItem.text = some (.str "bolt") ∧
      ∃ p, compile "items[0].name" = .ok p ∧ p.execute Dotted.oneItem = [.str "bolt"] ∧
        p.first? Dotted.oneItem = some (.str "bolt") :=
  ⟨Dotted.addressable_oneItem, Dotted.lookup_firstItem,
    execute_of_lookup .firstItem Dotted.addressable_oneItem Dotted.lookup_firstItem⟩

end Verdict.Path
