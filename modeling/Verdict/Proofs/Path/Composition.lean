import Verdict.Proofs.Json.Members
import Verdict.Proofs.Path.Descent

/-!
# Paths one after the other

A text that goes on where a path ends is a path from what the first one selects. A segment ends
where the next one starts, so reading does not see where the texts were joined; and segments select
one after the other, so neither does selecting.
-/

namespace Verdict.Path

/-! ## Joined texts -/

theorem Plain.append {cs rest more : List Char} {s : Segment} (h : Plain cs s rest)
    (hmore : ∀ c ∈ more.head?, c = '.' ∨ c = '[') : Plain (cs ++ more) s (rest ++ more) := by
  cases h with
  | star => exact .star _
  | @name name _ h =>
    rw [List.append_assoc]
    refine .name ⟨h.nonempty, h.chars, fun c hc => ?_⟩
    rw [List.head?_append, Option.mem_def, Option.or_eq_some_iff] at hc
    rcases hc with hc | ⟨-, hc⟩
    · exact h.longest c hc
    · rcases hmore c hc with rfl | rfl <;> simp [NameChar]

theorem Bracket.append {cs rest : List Char} {s : Segment} (h : Bracket cs s rest)
    (more : List Char) : Bracket (cs ++ more) s (rest ++ more) := by
  cases h with
  | star => exact .star _
  | quoted hq hname => simpa using Bracket.quoted hq hname (rest ++ more)
  | index h => simpa using Bracket.index h (rest ++ more)

theorem Tail.append {cs more : List Char} {ss ts : List Segment} (h : Tail cs ss)
    (t : Tail more ts) : Tail (cs ++ more) (ss ++ ts) := by
  induction h with
  | nil => exact t
  | plain h _ ih => exact .plain (h.append t.head) ih
  | bracket h _ ih => exact .bracket (h.append more) ih
  | deepPlain h _ ih => exact .deepPlain (h.append t.head) ih
  | deepBracket h _ ih => exact .deepBracket (h.append more) ih

theorem Spells.append {cs more : List Char} {ss ts : List Segment} (h : Spells cs ss)
    (t : Tail more ts) : Spells (cs ++ more) (ss ++ ts) := by
  cases h with
  | root h => exact .root (h.append t)
  | plain h hroot u =>
    refine .plain (h.append t.head) ?_ (u.append t)
    obtain ⟨c, rest, rfl, -⟩ := h.eq_cons
    exact hroot
  | bare h => exact .bare (h.append t)

/-- A path that starts like a further segment consists of further segments. -/
theorem Spells.tail {cs : List Char} {ss : List Segment} (h : Spells cs ss)
    (hstart : cs.head? = some '.' ∨ cs.head? = some '[') : Tail cs ss := by
  cases h with
  | root h =>
    rcases hstart with hstart | hstart <;> simp at hstart
  | plain h =>
    rcases hstart with hstart | hstart
    · exact absurd hstart (h.head_ne (Or.inl rfl))
    · exact absurd hstart (h.head_ne (Or.inr rfl))
  | bare t => exact t

/-- Joined texts have no blanks at the ends if neither has. -/
theorem trimChars_append {cs more : List Char} (hcs : Text.trimChars cs = cs)
    (hmore : Text.trimChars more = more) (hne : more ≠ []) :
    Text.trimChars (cs ++ more) = cs ++ more := by
  rw [Text.trimChars_eq_iff] at hcs hmore ⊢
  refine ⟨⟨[], [], by simp, by simp, by simp⟩, ?_, ?_⟩
  · intro c hc
    rw [List.head?_append, Option.mem_def, Option.or_eq_some_iff] at hc
    rcases hc with hc | ⟨-, hc⟩
    · exact hcs.first c hc
    · exact hmore.first c hc
  · intro c hc
    rw [List.getLast?_append_of_ne_nil _ hne] at hc
    exact hmore.last c hc

theorem trimChars_toList {text : String} (h : Text.trim text = text) :
    Text.trimChars text.toList = text.toList := by
  have hlist := congrArg String.toList h
  rwa [Text.trim, String.toList_ofList] at hlist

theorem spells_of_compile {text : String} {p : Path} (htrim : Text.trim text = text)
    (h : compile text = .ok p) : Spells text.toList p.segments := by
  have hread := derives_iff.mp (compile_eq_ok_iff.mp (show compile text = .ok ⟨p.segments⟩ from h))
  rw [trimChars_toList htrim] at hread
  exact readAll_eq_ok_iff.mp hread

theorem compile_append {text more : String} {p q : Path} (htext : Text.trim text = text)
    (hmore : Text.trim more = more)
    (hstart : more.toList.head? = some '.' ∨ more.toList.head? = some '[')
    (hp : compile text = .ok p) (hq : compile more = .ok q) :
    compile (text ++ more) = .ok ⟨p.segments ++ q.segments⟩ := by
  have hspells := (spells_of_compile htext hp).append ((spells_of_compile hmore hq).tail hstart)
  have hne : more.toList ≠ [] := by
    intro hnil
    rw [hnil] at hstart
    simp at hstart
  rw [compile_eq_ok_iff, derives_iff, String.toList_append,
    trimChars_append (trimChars_toList htext) (trimChars_toList hmore) hne]
  exact readAll_eq_ok_iff.mpr hspells

/-! ## Joined segments -/

/-- Segments go through the values that they meet one by one. -/
theorem foldl_select (ss : List Segment) (values : List Json) :
    ss.foldl (fun values s => values.flatMap (select s)) values =
      values.flatMap fun v => execute ⟨ss⟩ v := by
  induction ss generalizing values with
  | nil => exact (List.flatMap_singleton' values).symm
  | cons s ss ih =>
    have hfirst : ∀ v, execute ⟨s :: ss⟩ v = (select s v).flatMap fun w => execute ⟨ss⟩ w := by
      intro v
      rw [execute, List.foldl_cons, List.flatMap_singleton, ih]
    rw [List.foldl_cons, ih, List.flatMap_assoc, funext hfirst]

theorem execute_append (ss ts : List Segment) (record : Json) :
    execute ⟨ss ++ ts⟩ record = (execute ⟨ss⟩ record).flatMap fun v => execute ⟨ts⟩ v := by
  rw [execute, List.foldl_append, foldl_select]
  rfl

/-! ## Values inside the record -/

theorem mem_children_of_value? {name : String} {members : Members Json} {w : Json}
    (h : Members.value? name members = some w) : w ∈ children (.obj members) :=
  List.mem_map.mpr ⟨_, Members.mem_of_value? h, rfl⟩

theorem mem_children_of_element? {items : List Json} {n : Int} {w : Json}
    (h : element? items n = some w) : w ∈ children (.arr items) := by
  unfold element? at h
  split at h
  · split at h
    · exact List.mem_of_getElem? h
    · cases h
  · exact List.mem_of_getElem? h

theorem nodes_of_mem_children {v w : Json} (h : w ∈ children v) : w ∈ nodes v :=
  nodes_subset_of_mem_children h (mem_nodes_self w)

theorem nodes_subset {v w : Json} (h : w ∈ nodes v) : nodes w ⊆ nodes v := by
  induction v using children_induction with
  | step v ih =>
    rw [nodes_eq, List.mem_cons, List.mem_flatMap] at h
    rcases h with rfl | ⟨u, hu, hw⟩
    · exact List.Subset.refl _
    · exact List.Subset.trans (ih u hu hw) (nodes_subset_of_mem_children hu)

mutual
theorem selectField_subset (name : String) : (v : Json) → selectField name v ⊆ nodes v
  | .obj members => by
    intro w hw
    rw [selectField, Option.mem_toList] at hw
    exact nodes_of_mem_children (mem_children_of_value? hw)
  | .arr items => by
    intro w hw
    rw [selectField] at hw
    split at hw
    · exact nodes_of_mem_children (mem_children_of_element? (Option.mem_toList.mp hw))
    · rw [nodes]
      exact List.mem_cons_of_mem _ (selectFields_subset name items hw)
  | .null | .bool _ | .num _ | .str _ => by simp [selectField]

theorem selectFields_subset (name : String) : (items : List Json) →
    selectFields name items ⊆ nodesOfItems items
  | [] => by simp [selectFields]
  | v :: rest => by
    rw [selectFields, nodesOfItems]
    exact List.append_subset.mpr
      ⟨List.subset_append_of_subset_left _ (selectField_subset name v),
        List.subset_append_of_subset_right _ (selectFields_subset name rest)⟩
end

theorem selectDirect_subset (s : Segment) (v : Json) : selectDirect s v ⊆ nodes v := by
  intro w hw
  unfold selectDirect at hw
  split at hw
  · exact nodes_of_mem_children (mem_children_of_value? (Option.mem_toList.mp hw))
  · exact nodes_of_mem_children (mem_children_of_element? (Option.mem_toList.mp hw))
  · exact nodes_of_mem_children hw
  · cases hw

theorem select_subset (s : Segment) (v : Json) : select s v ⊆ nodes v := by
  intro w hw
  unfold select at hw
  split at hw
  · exact selectField_subset _ _ hw
  · exact nodes_of_mem_children (mem_children_of_element? (Option.mem_toList.mp hw))
  · exact nodes_of_mem_children (mem_children_of_value? (Option.mem_toList.mp hw))
  · cases hw
  · exact nodes_of_mem_children hw
  · obtain ⟨u, hu, hw⟩ := List.mem_flatMap.mp hw
    exact nodes_subset hu (selectDirect_subset _ u hw)

theorem execute_subset (ss : List Segment) (record : Json) :
    execute ⟨ss⟩ record ⊆ nodes record := by
  induction ss generalizing record with
  | nil => simp [execute, mem_nodes_self]
  | cons s ss ih =>
    rw [← List.singleton_append, execute_append]
    intro w hw
    obtain ⟨u, hu, hw⟩ := List.mem_flatMap.mp hw
    rw [execute_single] at hu
    exact nodes_subset (select_subset s record hu) (ih u hw)

theorem exists_at?_of_mem_nodes {v w : Json} (h : w ∈ nodes v) : ∃ place, at? v place = some w := by
  rw [nodes_eq_places, List.mem_filterMap] at h
  obtain ⟨place, -, hw⟩ := h
  exact ⟨place, hw⟩

/-- Paths can be joined where the second one starts with a dot or a bracket: the joined text
selects, in order, what the second path selects in each value that the first one selects. And
whatever a path selects stands somewhere in the record. -/
theorem joined_inside :
    (∀ (text more : String) (p q : Path), compile text = .ok p → compile more = .ok q →
        Text.trim text = text → Text.trim more = more →
        more.toList.head? = some '.' ∨ more.toList.head? = some '[' →
        ∃ joined, compile (text ++ more) = .ok joined ∧
          ∀ record, joined.execute record = (p.execute record).flatMap q.execute) ∧
      ∀ (text : String) (p : Path) (record v : Json), compile text = .ok p →
        v ∈ p.execute record → ∃ place, at? record place = some v := by
  constructor
  · intro text more p q hp hq htext hmore hstart
    exact ⟨_, compile_append htext hmore hstart hp hq, execute_append p.segments q.segments⟩
  · intro text p record v _ hv
    exact exists_at?_of_mem_nodes (execute_subset p.segments record hv)

def assembly : Json :=
  .obj [("parts", .arr [.obj [("id", .str "a"), ("parts", .arr [.obj [("id", .str "b")]])]])]

theorem joined_inside_descent :
    (∃ joined, compile ("parts[0]" ++ "..id") = .ok joined ∧ ∀ record, joined.execute record =
      (execute ⟨[.field "parts", .index 0]⟩ record).flatMap
        (execute ⟨[.descend (.field "id")]⟩)) ∧
      Json.str "b" ∈ execute ⟨[.descend (.field "id")]⟩ assembly ∧
      ∃ place, at? assembly place = some (.str "b") := by
  have hparts : compile "parts[0]" = .ok ⟨[.field "parts", .index 0]⟩ := by cbv
  have hid : compile "..id" = .ok ⟨[.descend (.field "id")]⟩ := by cbv
  have hb : Json.str "b" ∈ execute ⟨[.descend (.field "id")]⟩ assembly := by
    rw [execute_single]
    exact List.mem_cons_of_mem _ List.mem_cons_self
  exact ⟨joined_inside.1 "parts[0]" "..id" _ _ hparts hid rfl rfl (Or.inl rfl), hb,
    joined_inside.2 "..id" _ assembly _ hid hb⟩

end Verdict.Path
