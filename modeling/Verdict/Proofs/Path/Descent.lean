import Mathlib.Data.List.Perm.Basic
import Verdict.Proofs.Path.Grammar
import Verdict.Proofs.Path.Nodes

/-!
# Descents

A descent selects at every value inside a value, the value itself included, and at each of them
once. What it selects stands in the order of the document, except for the star: that one puts all
children of a value in front of what is inside them.
-/

namespace Verdict.Path

/-- The element of a list at an index; a negative one counts from the back. -/
def nth? (n : Int) : Json → Option Json
  | .arr items =>
    match n with
    | .ofNat i => items[i]?
    | .negSucc i => items.reverse[i]?
  | _ => none

theorem element?_eq_nth? (items : List Json) (n : Int) :
    element? items n = nth? n (.arr items) := by
  unfold element? nth?
  cases n with
  | ofNat i => exact if_neg (Int.not_lt.mpr (Int.natCast_nonneg i))
  | negSucc i =>
    rw [if_pos (by omega), Int.natAbs_negSucc]
    by_cases hi : i < items.length
    · rw [if_pos (by omega)]
      change items[items.length - (i + 1)]? = items.reverse[i]?
      rw [List.getElem?_reverse hi]
      congr 1
      omega
    · rw [if_neg (by omega)]
      exact (List.getElem?_eq_none (by rw [List.length_reverse]; omega)).symm

theorem execute_single (s : Segment) (v : Json) : execute ⟨[s]⟩ v = select s v := by
  simp [execute]

/-! ## Names and indices -/

/-- A segment that selects at most one value at each value selects it at all places in turn. -/
theorem select_descend {s : Segment} {f : Json → Option Json}
    (hf : ∀ w, selectDirect s w = (f w).toList) (v : Json) :
    select (.descend s) v = (places v).filterMap fun place => (at? v place).bind f := by
  calc
    select (.descend s) v = (nodes v).flatMap fun w => (f w).toList := by
      rw [select, funext hf]
    _ = (nodes v).filterMap f := (List.filterMap_eq_flatMap_toList f _).symm
    _ = (places v).filterMap fun place => (at? v place).bind f := by
      rw [nodes_eq_places, List.filterMap_filterMap]

theorem selectDirect_field (name : String) (w : Json) :
    selectDirect (.field name) w = (Json.member? name w).toList := by
  cases w <;> rfl

theorem selectDirect_index (n : Int) (w : Json) :
    selectDirect (.index n) w = (nth? n w).toList := by
  cases w with
  | arr items => rw [selectDirect, element?_eq_nth?]
  | _ => rfl

/-! ## Stars -/

theorem flatMap_children_perm (v : Json) :
    ((nodes v).flatMap children).Perm ((children v).flatMap nodes) := by
  induction v using children_induction with
  | step v ih =>
    have hbelow : ((children v).flatMap fun w => (nodes w).flatMap children).Perm
        ((children v).flatMap fun w => (children w).flatMap nodes) :=
      List.Perm.flatMap_left _ ih
    have hnodes : (children v).flatMap nodes =
        (children v).flatMap fun w => [w] ++ (children w).flatMap nodes := by
      congr 1
      funext w
      exact nodes_eq w
    calc
      (nodes v).flatMap children =
          children v ++ (children v).flatMap fun w => (nodes w).flatMap children := by
        rw [nodes_eq v, List.flatMap_cons, List.flatMap_assoc]
      List.Perm _ (children v ++ (children v).flatMap fun w => (children w).flatMap nodes) :=
        hbelow.append_left _
      _ = ((children v).flatMap fun w => [w]) ++
          (children v).flatMap fun w => (children w).flatMap nodes := by
        rw [List.flatMap_singleton']
      List.Perm _ ((children v).flatMap nodes) := by
        rw [hnodes]
        exact List.flatMap_append_perm _ _ _

theorem erase_places (v : Json) :
    ((places v).erase []).filterMap (at? v) = (children v).flatMap nodes := by
  have hcons : v :: ((places v).erase []).filterMap (at? v) = v :: (children v).flatMap nodes := by
    rw [← nodes_eq, nodes_eq_places, places_eq, List.erase_cons_head]
    rfl
  exact List.cons.inj hcons |>.2

/-! ## Texts -/

theorem compile_star : compile "$..*" = .ok ⟨[.descend .wildcard]⟩ :=
  compile_of_spells (Text.isBlank_eq_false_of_all rfl) (.root (.deepPlain (.star []) .nil))

theorem compile_descend_name (name : PlainName) :
    compile (".." ++ name.text) = .ok ⟨[.descend (.field name.text)]⟩ := by
  apply compile_of_spells
  · rw [String.toList_append, List.forall_mem_append]
    exact ⟨Text.isBlank_eq_false_of_all rfl, fun c hc => (name.chars c hc).2⟩
  · have hname : Plain (name.text.toList ++ []) _ [] := .name (name.name (by simp))
    simpa using Spells.bare (.deepPlain hname .nil)

theorem compile_descend_index {n : Int} (hlow : -2 ^ 63 ≤ n) (hhigh : n < 2 ^ 63) :
    compile ("$..[" ++ toString n ++ "]") = .ok ⟨[.descend (.index n)]⟩ := by
  have hn := index_toString hlow hhigh
  apply compile_of_spells
  · rw [String.toList_append, String.toList_append, List.forall_mem_append,
      List.forall_mem_append]
    exact ⟨⟨Text.isBlank_eq_false_of_all rfl, hn.isBlank_eq_false⟩,
      Text.isBlank_eq_false_of_all rfl⟩
  · rw [String.toList_append, String.toList_append, List.append_assoc]
    exact .root (.deepBracket (.index hn []) .nil)

/-- Descending to a star finds every value inside but the outermost, each once. Descending to a
name finds that member of every object that has it, and descending to an index that element of
every list that is long enough, in the order of the document and each once. -/
theorem descents_exact (v : Json) :
    Enumerates (places v) v ∧
      (compile "$..*" = .ok ⟨[.descend .wildcard]⟩ ∧
        (execute ⟨[.descend .wildcard]⟩ v).Perm (((places v).erase []).filterMap (at? v))) ∧
      ((∀ name : PlainName, compile (".." ++ name.text) = .ok ⟨[.descend (.field name.text)]⟩) ∧
        ∀ name : String, execute ⟨[.descend (.field name)]⟩ v =
          (places v).filterMap fun place => (at? v place).bind (Json.member? name)) ∧
      ((∀ n : Int64, compile ("$..[" ++ toString n.toInt ++ "]") =
          .ok ⟨[.descend (.index n.toInt)]⟩) ∧
        ∀ n : Int, execute ⟨[.descend (.index n)]⟩ v =
          (places v).filterMap fun place => (at? v place).bind (nth? n)) := by
  refine ⟨places_enumerates v, ⟨compile_star, ?_⟩, ⟨compile_descend_name, fun name => ?_⟩,
    fun n => compile_descend_index n.le_toInt n.toInt_lt, fun n => ?_⟩
  · rw [execute_single, erase_places]
    exact flatMap_children_perm v
  · rw [execute_single, select_descend (selectDirect_field name)]
  · rw [execute_single, select_descend (selectDirect_index n)]

end Verdict.Path
