import Mathlib.Algebra.GroupWithZero.Nat
import Verdict.Pattern.Automaton
import Verdict.Proofs.Text.CharSet

/-!
# The room of an automaton

How much room the automata of an expression take at most, counted along the expression.  What a
construction adds does not depend on what there is already, except that states which are recalled
need not be made again: a bound that has every state made is one for every memory.
-/

namespace Verdict.Pattern

open Verdict.Text

/-- Bytes that are enough for the automaton of an expression, whichever way it reads. -/
def Expr.room : Expr → Nat
  | empty | look _ => 32
  | word cs => 80 * (Automaton.encoding cs).length
  | set s => 164 * (Utf8.sequences s).length + 8 * s.ranges.size + 64
  | capture _ e => e.room + 68
  | seq a b => a.room + b.room + 4
  | alt a b => a.room + b.room + 80
  | rep least most _ e => max 1 (max least (most.getD 0)) * (e.room + 44) + 76

namespace Automaton

/-! ## Constructions -/

/-- A construction that comes to its end where so many bytes are left, and adds no more. -/
def Takes {α : Type} (m : Builder α) (n : Nat) : Prop :=
  ∀ r : Room, r.bytes + n ≤ maxBytes → ∃ a r', m r = some (a, r') ∧ r'.bytes ≤ r.bytes + n

section Takes

variable {α β : Type} {m : Builder α} {k : α → Builder β} {a b : Nat}

theorem Takes.mono (h : Takes m a) (hab : a ≤ b) : Takes m b := by
  intro r hr
  obtain ⟨x, r', hx, hr'⟩ := h r (by omega)
  exact ⟨x, r', hx, by omega⟩

theorem takes_pure (x : α) : Takes (pure x) 0 :=
  fun r _ => ⟨x, r, rfl, Nat.le_refl _⟩

theorem takes_get : Takes get 0 :=
  fun r _ => ⟨r, r, rfl, Nat.le_refl _⟩

theorem Takes.bind (hm : Takes m a) (hk : ∀ x, Takes (k x) b) : Takes (m >>= k) (a + b) := by
  intro r hr
  obtain ⟨x, r₁, hx, hr₁⟩ := hm r (by omega)
  obtain ⟨y, r₂, hy, hr₂⟩ := hk x r₁ (by omega)
  refine ⟨y, r₂, ?_, by omega⟩
  change (m r).bind (fun p => k p.1 p.2) = _
  rw [hx]
  exact hy

theorem takes_grow (states held : Nat) : Takes (grow states held) (32 * states + held) := by
  intro r hr
  have hbytes : (⟨r.states + states, r.held + held⟩ : Room).bytes =
      r.bytes + (32 * states + held) := by
    simp only [Room.bytes]
    omega
  exact ⟨(), _, if_pos (Nat.le_trans (Nat.le_of_eq hbytes) hr), Nat.le_of_eq hbytes⟩

theorem takes_newState (held : Nat) : Takes (newState held) (32 + held) :=
  (takes_get.bind fun _ => (takes_grow 1 held).bind fun _ => takes_pure _).mono (by omega)

theorem takes_forks (count : Nat) : Takes (forks count) (4 * count) :=
  (takes_grow 0 (4 * count)).mono (by omega)

theorem takes_lead : (fork : Bool) → Takes (lead fork) 4
  | true => takes_forks 1
  | false => (takes_pure ()).mono (by omega)

theorem takes_forM {l : List β} {f : β → Builder PUnit} {cost : β → Nat}
    (h : ∀ x ∈ l, Takes (f x) (cost x)) : Takes (l.forM f) (l.map cost).sum := by
  induction l with
  | nil => exact takes_pure ()
  | cons x rest ih =>
    obtain ⟨hx, hrest⟩ := List.forall_mem_cons.mp h
    exact hx.bind fun _ => ih hrest

end Takes

/-! ## Constructions with a memory -/

def TakesWith {σ α : Type} (m : StateT σ Builder α) (n : Nat) : Prop :=
  ∀ s, Takes (m s) n

section TakesWith

variable {σ α β γ : Type} {m : StateT σ Builder α} {k : α → StateT σ Builder β} {a b : Nat}

theorem TakesWith.mono (h : TakesWith m a) (hab : a ≤ b) : TakesWith m b :=
  fun s => (h s).mono hab

theorem takesWith_pure (x : α) : TakesWith (pure x : StateT σ Builder α) 0 :=
  fun s => takes_pure (x, s)

theorem takesWith_get : TakesWith (get : StateT σ Builder σ) 0 :=
  fun s => takes_pure (s, s)

theorem takesWith_modify (f : σ → σ) : TakesWith (modify f) 0 :=
  fun s => takes_pure ((), f s)

theorem Takes.lift {m : Builder α} (h : Takes m a) :
    TakesWith (monadLift m : StateT σ Builder α) a :=
  fun s => h.bind fun x => takes_pure (x, s)

theorem TakesWith.bind (hm : TakesWith m a) (hk : ∀ x, TakesWith (k x) b) :
    TakesWith (m >>= k) (a + b) :=
  fun s => (hm s).bind fun p => hk p.1 p.2

theorem takesWith_forM {l : List γ} {f : γ → StateT σ Builder PUnit} {cost : γ → Nat}
    (h : ∀ x ∈ l, TakesWith (f x) (cost x)) : TakesWith (l.forM f) (l.map cost).sum := by
  induction l with
  | nil => exact takesWith_pure ()
  | cons x rest ih =>
    obtain ⟨hx, hrest⟩ := List.forall_mem_cons.mp h
    exact hx.bind fun _ => ih hrest

/-- What follows may count on having as many results as there were parts. -/
theorem TakesWith.mapM_bind {l : List γ} {f : γ → StateT σ Builder α} {cost : γ → Nat}
    {k : List α → StateT σ Builder β} (hf : ∀ x ∈ l, TakesWith (f x) (cost x))
    (hk : ∀ ys, ys.length = l.length → TakesWith (k ys) b) :
    TakesWith (l.mapM f >>= k) ((l.map cost).sum + b) := by
  induction l generalizing k with
  | nil =>
    rw [List.mapM_nil, pure_bind]
    exact (hk [] rfl).mono (by simp)
  | cons x rest ih =>
    obtain ⟨hx, hrest⟩ := List.forall_mem_cons.mp hf
    simp only [List.mapM_cons, bind_assoc, pure_bind]
    refine (hx.bind fun y => ih hrest fun ys hys => hk (y :: ys) ?_).mono ?_
    · rw [List.length_cons, List.length_cons, hys]
    · rw [List.map_cons, List.sum_cons]
      omega

end TakesWith

theorem takesWith_remembered {α : Type} [DecidableEq α] (size : UInt64) (numbers : α → List Nat)
    (held : α → Nat) (key : α) :
    TakesWith (remembered size numbers held key) (32 + held key) := by
  have hnew : ∀ place : UInt64, TakesWith (do
      let state ← newState (held key)
      modify (·.insert place (key, state))
      return state : StateT (Memory α) Builder Nat) (32 + held key) := fun place =>
    ((takes_newState (held key)).lift.bind fun _ =>
      (takesWith_modify _).bind fun _ => takesWith_pure _).mono (by omega)
  refine (takesWith_get.bind fun memory => ?_).mono (Nat.le_of_eq (Nat.zero_add _))
  split
  · split
    · exact (takesWith_pure _).mono (Nat.zero_le _)
    · exact hnew _
  · exact hnew _

/-! ## Words by what they begin with -/

/-- The length of all words in a table, which keeps them by what they begin with. -/
def spelled {α β : Type} (table : List (α × List (List β))) : Nat :=
  (table.map fun g => g.2.flatten.length + g.2.length).sum

theorem sum_add_le_spelled {α β : Type} {table : List (α × List (List β))} {c d e : Nat}
    (h : ∀ g ∈ table, g.2 ≠ []) (hc : d + e = c) :
    (table.map fun g => c * g.2.flatten.length + d * g.2.length).sum + e * table.length ≤
      c * spelled table := by
  subst hc
  induction table with
  | nil => exact Nat.le_refl _
  | cons g rest ih =>
    obtain ⟨hg, hrest⟩ := List.forall_mem_cons.mp h
    have hself : e ≤ e * g.2.length := Nat.le_mul_of_pos_right e (List.length_pos_iff.mpr hg)
    have htail := ih hrest
    simp only [spelled, List.map_cons, List.sum_cons, List.length_cons, Nat.mul_add,
      Nat.add_mul, Nat.mul_one] at htail ⊢
    omega

theorem length_flatten_pos {α : Type} {words : List (List α)}
    (h : words.all List.isEmpty = false) : 0 < words.flatten.length := by
  obtain ⟨w, hw, hfull⟩ := List.all_eq_false.mp h
  refine List.length_pos_iff.mpr fun hnil => hfull (List.isEmpty_iff.mpr ?_)
  exact List.flatten_eq_nil_iff.mp hnil w hw

/-! ## Sets of characters -/

theorem spelled_groups (es : List (List Utf8.ByteRange)) :
    spelled (groups es) = es.flatten.length := by
  fun_induction groups es with
  | case1 => rfl
  | case2 more ih => exact ih
  | case3 r rest more rests others hgroups ih =>
    simp only [hgroups, spelled, List.map_cons, List.sum_cons] at ih ⊢
    simp only [List.flatten_cons, List.length_append, List.length_cons, ← ih]
    omega
  | case4 r rest more s rests others hgroups hne ih =>
    simp only [hgroups, spelled, List.map_cons, List.sum_cons] at ih ⊢
    simp only [List.flatten_cons, List.length_append, List.length_cons, ← ih, List.flatten_nil,
      List.length_nil]
  | case5 r rest more hgroups ih =>
    simp only [hgroups, spelled, List.map_nil, List.sum_nil] at ih
    simp only [spelled, List.map_cons, List.sum_cons, List.flatten_cons, List.length_append,
      List.length_cons, ← ih, List.flatten_nil, List.length_nil, List.map_nil, List.sum_nil]

theorem rests_ne_nil (es : List (List Utf8.ByteRange)) : ∀ g ∈ groups es, g.2 ≠ [] := by
  fun_induction groups es with
  | case1 => exact nofun
  | case2 more ih => exact ih
  | case3 r rest more rests others hgroups ih =>
    rw [hgroups] at ih
    exact List.forall_mem_cons.mpr ⟨List.cons_ne_nil _ _, (List.forall_mem_cons.mp ih).2⟩
  | case4 r rest more s rests others hgroups hne ih =>
    rw [hgroups] at ih
    exact List.forall_mem_cons.mpr ⟨List.cons_ne_nil _ _, ih⟩
  | case5 r rest more hgroups ih =>
    exact List.forall_mem_singleton.mpr (List.cons_ne_nil _ _)

theorem takesWith_front (target depth : Nat) (es : List (List Utf8.ByteRange)) :
    TakesWith (front target depth es) (max 32 (40 * es.flatten.length)) := by
  induction depth generalizing es with
  | zero => exact (takesWith_pure target).mono (Nat.zero_le _)
  | succ depth ih =>
    have hnext : ∀ g : Utf8.ByteRange × List (List Utf8.ByteRange), TakesWith (do
        let next ← if g.2.all List.isEmpty then pure target else front target depth g.2
        return (g.1, next)) (40 * g.2.flatten.length) := by
      intro g
      cases hall : g.2.all List.isEmpty with
      | true => exact (takesWith_pure _).mono (Nat.zero_le _)
      | false =>
        have hpos := length_flatten_pos hall
        refine ((ih g.2).bind (b := 0) fun _ => takesWith_pure _).mono ?_
        omega
    have hstate : ∀ moves : Moves, moves.length = (groups es).length →
        TakesWith (remembered 10000 numbers (8 * ·.length) moves) (32 + 8 * (groups es).length) :=
      fun moves hmoves => hmoves ▸ takesWith_remembered _ _ _ moves
    rw [front]
    refine (TakesWith.mapM_bind (fun g _ => hnext g) hstate).mono ?_
    have hsum := sum_add_le_spelled (rests_ne_nil es) (Nat.zero_add 40)
    rw [spelled_groups] at hsum
    simp only [Nat.zero_mul, Nat.add_zero] at hsum
    cases hgroups : groups es with
    | nil => exact Nat.le_max_left ..
    | cons g rest =>
      rw [hgroups, List.length_cons] at hsum
      rw [List.length_cons]
      omega

theorem takesWith_back (target : Nat) (encoding : List Utf8.ByteRange) :
    TakesWith (back target encoding) (32 * encoding.length) := by
  induction encoding generalizing target with
  | nil => exact takesWith_pure target
  | cons range rest ih =>
    refine ((takesWith_remembered _ _ _ _).bind fun state => ih state).mono ?_
    rw [List.length_cons]
    omega

theorem takes_ofSet (way : Way) (s : CharSet) :
    Takes (ofSet way s) (164 * (Utf8.sequences s).length + 8 * s.ranges.size + 64) := by
  rw [ofSet]
  split
  · exact ((takes_grow 2 _).bind fun _ => takes_pure _).mono (by omega)
  · cases way with
    | forward =>
      have hlength := Utf8.length_flatten_sequences_le s
      exact ((takes_newState 0).bind fun target =>
        (takesWith_front target 4 (Utf8.sequences s) {}).bind fun _ => takes_pure _).mono (by omega)
    | backward =>
      have heach : ∀ target, ∀ e ∈ Utf8.sequences s, TakesWith (do
          let _ ← back target e
          forks 1) 132 := fun target e he =>
        ((takesWith_back target e).bind fun _ => (takes_forks 1).lift).mono
          (by have := Utf8.length_le_of_mem_sequences he; omega)
      refine ((takes_grow 1 0).bind fun _ => (takes_newState 0).bind fun target =>
        (takesWith_forM (heach target) {}).bind fun _ => takes_pure _).mono ?_
      rw [List.map_const', List.sum_replicate_nat]
      omega

/-! ## Words -/

theorem flatten_chunks (words : List (List UInt8)) :
    (chunks words).flatten.flatten = words.flatten := by
  fun_induction chunks words with
  | case1 => rfl
  | case2 more ih => exact ih
  | case3 w more hfull chunk others hchunks ih =>
    rw [hchunks] at ih
    simp only [List.flatten_cons, List.flatten_append, List.cons_append] at ih ⊢
    rw [ih]
  | case4 w more hfull hchunks ih =>
    rw [hchunks] at ih
    simp [List.flatten_cons, ← ih]

section Tables

variable {table : List (UInt8 × List (List UInt8))}

theorem spelled_insertWord (b : UInt8) (rest : List UInt8)
    (table : List (UInt8 × List (List UInt8))) :
    spelled (insertWord b rest table) = spelled table + (b :: rest).length := by
  fun_induction insertWord b rest table with
  | case1 => simp [spelled]
  | case2 rests others =>
    simp only [spelled, List.map_cons, List.sum_cons, List.flatten_append, List.length_append,
      List.length_cons, List.flatten_singleton, List.length_nil]
    omega
  | case3 c rests others hne ih =>
    simp only [spelled, List.map_cons, List.sum_cons] at ih ⊢
    omega

theorem rests_ne_nil_insertWord (b : UInt8) (rest : List UInt8) (h : ∀ g ∈ table, g.2 ≠ []) :
    ∀ g ∈ insertWord b rest table, g.2 ≠ [] := by
  fun_induction insertWord b rest table with
  | case1 => exact List.forall_mem_singleton.mpr (List.cons_ne_nil _ _)
  | case2 rests others =>
    obtain ⟨-, hothers⟩ := List.forall_mem_cons.mp h
    exact List.forall_mem_cons.mpr ⟨List.append_ne_nil_of_right_ne_nil _ (List.cons_ne_nil _ _),
      hothers⟩
  | case3 c rests others hne ih =>
    obtain ⟨hrests, hothers⟩ := List.forall_mem_cons.mp h
    exact List.forall_mem_cons.mpr ⟨hrests, ih hothers⟩

theorem foldl_addWord (words : List (List UInt8)) (h : ∀ g ∈ table, g.2 ≠ []) :
    spelled (words.foldl addWord table) = spelled table + words.flatten.length ∧
      ∀ g ∈ words.foldl addWord table, g.2 ≠ [] := by
  induction words generalizing table with
  | nil => exact ⟨rfl, h⟩
  | cons w more ih =>
    cases w with
    | nil => exact ih h
    | cons b rest =>
      obtain ⟨hspelled, hrests⟩ := ih (rests_ne_nil_insertWord b rest h)
      refine ⟨hspelled.trans ?_, hrests⟩
      rw [spelled_insertWord, List.flatten_cons, List.length_append, Nat.add_assoc]

theorem spelled_byFirst (chunk : List (List UInt8)) :
    spelled (byFirst chunk) = chunk.flatten.length :=
  (foldl_addWord chunk fun _ h => absurd h List.not_mem_nil).1.trans (Nat.zero_add _)

theorem rests_ne_nil_byFirst (chunk : List (List UInt8)) : ∀ g ∈ byFirst chunk, g.2 ≠ [] :=
  (foldl_addWord chunk fun _ h => absurd h List.not_mem_nil).2

end Tables

theorem spelled_tables (chunks : List (List (List UInt8))) :
    spelled (chunks.map byFirst).flatten = chunks.flatten.flatten.length := by
  induction chunks with
  | nil => rfl
  | cons chunk others ih =>
    rw [List.map_cons, List.flatten_cons, List.flatten_cons, List.flatten_append,
      List.length_append, ← ih, ← spelled_byFirst chunk]
    exact (congrArg List.sum (List.map_append ..)).trans List.sum_append

theorem rests_ne_nil_tables (chunks : List (List (List UInt8))) :
    ∀ g ∈ (chunks.map byFirst).flatten, g.2 ≠ [] := by
  intro g hg
  obtain ⟨table, htable, hg⟩ := List.mem_flatten.mp hg
  obtain ⟨chunk, -, rfl⟩ := List.mem_map.mp htable
  exact rests_ne_nil_byFirst chunk g hg

/-- Words that end before any other goes on are left out but for one. -/
theorem ended_once (words : List (List UInt8)) :
    ((words.takeWhile List.isEmpty).take 1 ++ words.dropWhile List.isEmpty).flatten =
        words.flatten ∧
      ((words.takeWhile List.isEmpty).take 1 ++ words.dropWhile List.isEmpty).length ≤
        words.length := by
  have hnil : ∀ n, ((words.takeWhile List.isEmpty).take n).flatten = [] := fun n =>
    List.flatten_eq_nil_iff.mpr fun w hw => List.isEmpty_iff.mp <|
      List.all_eq_true.mp List.all_takeWhile w (List.mem_of_mem_take hw)
  have hsplit := List.takeWhile_append_dropWhile (p := List.isEmpty) (l := words)
  have hlength := congrArg List.length hsplit
  constructor
  · conv_rhs => rw [← hsplit]
    have hall := hnil (words.takeWhile List.isEmpty).length
    rw [List.take_length] at hall
    rw [List.flatten_append, List.flatten_append, hnil, hall]
  · rw [List.length_append] at hlength ⊢
    have := List.length_take_le 1 (words.takeWhile List.isEmpty)
    have := List.length_take_le' 1 (words.takeWhile List.isEmpty)
    omega

theorem sum_used_le {α : Type} (tables : List (List α)) :
    ((tables.filter (!·.isEmpty)).map fun table => 32 + 8 * table.length).sum +
      4 * (tables.filter (!·.isEmpty)).length ≤ 44 * tables.flatten.length := by
  induction tables with
  | nil => exact Nat.le_refl _
  | cons table others ih =>
    rw [List.flatten_cons, List.length_append]
    cases table with
    | nil => simpa using ih
    | cons g rest =>
      simp only [List.filter_cons, List.isEmpty_cons, Bool.not_false, if_true, List.map_cons,
        List.sum_cons, List.length_cons]
      omega

theorem takes_tree (depth : Nat) (words : List (List UInt8)) :
    Takes (tree depth words) (80 * words.flatten.length + 4 * words.length) := by
  induction depth generalizing words with
  | zero => exact (takes_pure ()).mono (Nat.zero_le _)
  | succ depth ih =>
    rw [tree]
    cases hall : words.all List.isEmpty with
    | true => exact (takes_pure ()).mono (Nat.zero_le _)
    | false =>
      simp only [Bool.false_eq_true, if_false]
      obtain ⟨hflatten, hlength⟩ := ended_once words
      have hpos := length_flatten_pos hall
      generalize (words.takeWhile List.isEmpty).take 1 ++ words.dropWhile List.isEmpty = once at *
      have hspelled := spelled_tables (chunks once)
      have hrests := rests_ne_nil_tables (chunks once)
      rw [flatten_chunks, hflatten] at hspelled
      generalize (chunks once).map byFirst = tables at *
      have hsum := sum_add_le_spelled hrests (by decide : 4 + 76 = 80)
      have hused := sum_used_le tables
      have hcount := List.countP_le_length (p := List.isEmpty) (l := once)
      have hbelow : Takes (tables.forM fun table => table.forM fun g => tree depth g.2)
          (tables.map fun table => (table.map fun g =>
            80 * g.2.flatten.length + 4 * g.2.length).sum).sum :=
        takes_forM fun table _ => takes_forM fun g _ => ih g.2
      have hstates : Takes ((tables.filter (!·.isEmpty)).forM fun table =>
            grow 1 (if table.length = 1 then 0 else 8 * table.length))
          ((tables.filter (!·.isEmpty)).map fun table => 32 + 8 * table.length).sum :=
        takes_forM fun table _ => (takes_grow 1 _).mono (by split <;> omega)
      refine (hbelow.bind fun _ => hstates.bind fun _ => (takes_grow 1 0).bind fun _ =>
        takes_forks _).mono ?_
      have hcost : (tables.map fun table => (table.map fun g =>
          80 * g.2.flatten.length + 4 * g.2.length).sum).sum =
          (tables.flatten.map fun g => 80 * g.2.flatten.length + 4 * g.2.length).sum := by
        rw [List.map_flatten, List.sum_flatten, List.map_map]
        rfl
      have hsome : 0 < tables.flatten.length := by
        refine List.length_pos_iff.mpr fun hnil => ?_
        rw [hnil] at hspelled
        exact absurd hpos (Nat.not_lt.mpr (Nat.le_of_eq hspelled.symm))
      rw [hcost]
      omega

theorem length_spelling (way : Way) (cs : List Char) :
    (spelling way cs).length = (encoding cs).length := by
  cases way with
  | forward => rfl
  | backward => exact List.length_reverse

theorem takes_ofWords (way : Way) (words : List (List Char)) :
    Takes (ofWords way words)
      ((words.map fun cs => 80 * (encoding cs).length).sum + 4 * words.length + 32) := by
  have htotal : 80 * (words.map (spelling way)).flatten.length =
      (words.map fun cs => 80 * (encoding cs).length).sum := by
    induction words with
    | nil => rfl
    | cons cs rest ih =>
      rw [List.map_cons, List.flatten_cons, List.length_append, Nat.mul_add, ih, length_spelling]
      rfl
  refine ((takes_grow 1 0).bind fun _ => (takes_tree _ _).bind fun _ => takes_pure _).mono ?_
  rw [List.length_map]
  omega

/-! ## Repetitions and choices -/

section Bodies

variable {body : Builder Bool} {n : Nat}

theorem takes_again (h : Takes body n) (count : Nat) (last : Bool) :
    Takes (again body count last) (count * (n + 4)) := by
  induction count generalizing last with
  | zero => exact (takes_pure last).mono (Nat.zero_le _)
  | succ count ih =>
    refine (h.bind fun next => (takes_lead last).bind fun _ => ih next).mono ?_
    rw [Nat.succ_mul count]
    omega

theorem takes_exactly (h : Takes body n) (count : Nat) :
    Takes (exactly body count) (count * (n + 4) + 32) := by
  cases count with
  | zero => exact ((takes_grow 1 0).bind fun _ => takes_pure _).mono (by omega)
  | succ count =>
    refine (h.bind fun first => takes_again h count first).mono ?_
    rw [Nat.succ_mul count]
    omega

theorem takes_optional (h : Takes body n) (count : Nat) (last : Bool) :
    Takes (optional body count last) (count * (n + 44) + 4) := by
  induction count generalizing last with
  | zero => exact (takes_lead last).mono (by omega)
  | succ count ih =>
    refine ((takes_grow 1 0).bind fun _ => h.bind fun next => (takes_lead last).bind fun _ =>
      (takes_forks 2).bind fun _ => ih next).mono ?_
    rw [Nat.succ_mul count]
    omega

theorem takes_repetition (h : Takes body n) (nonempty : Bool) (least : Nat) (most : Option Nat) :
    Takes (repetition body nonempty least most)
      (max 1 (max least (most.getD 0)) * (n + 44) + 76) := by
  have hexactly : ∀ count, count ≤ max 1 (max least (most.getD 0)) →
      count * (n + 4) ≤ max 1 (max least (most.getD 0)) * (n + 44) := fun count hcount =>
    Nat.mul_le_mul hcount (Nat.add_le_add_left (by decide) n)
  have hone : n + 44 ≤ max 1 (max least (most.getD 0)) * (n + 44) :=
    Nat.le_mul_of_pos_left _ (by omega)
  rw [repetition.eq_def]
  cases most with
  | some most =>
    simp only
    split
    · have hrounds := hexactly least (by omega)
      exact (takes_exactly h least).mono (by omega)
    · split
      · refine ((takes_grow 1 0).bind fun _ => h.bind fun last => (takes_grow 1 0).bind fun _ =>
          (takes_forks 2).bind fun _ => (takes_lead last).bind fun _ => takes_pure _).mono ?_
        omega
      · refine ((takes_exactly h least).bind fun last => (takes_grow 1 0).bind fun _ =>
          (takes_optional h (most - least) last).bind fun _ => takes_pure _).mono ?_
        have hrounds : least * (n + 4) + (most - least) * (n + 44) ≤
            max 1 (max least most) * (n + 44) := calc
          _ ≤ least * (n + 44) + (most - least) * (n + 44) :=
            Nat.add_le_add_right (Nat.mul_le_mul_left _ (by omega)) _
          _ = (least + (most - least)) * (n + 44) := (Nat.add_mul ..).symm
          _ ≤ _ := Nat.mul_le_mul_right _ (by omega)
        simp only [Option.getD_some]
        omega
  | none =>
    simp only
    split
    · split
      · exact ((takes_grow 1 0).bind fun _ => h.bind fun last => (takes_forks 1).bind fun _ =>
          (takes_lead last).bind fun _ => takes_pure _).mono (by omega)
      · exact (h.bind fun last => (takes_grow 3 0).bind fun _ => (takes_lead last).bind fun _ =>
          (takes_forks 4).bind fun _ => takes_pure _).mono (by omega)
    · have hrounds := hexactly least (by omega)
      split
      · rename_i hone
        rw [hone] at hrounds
        refine (h.bind fun last => (takes_grow 1 0).bind fun _ => (takes_lead false).bind fun _ =>
          (takes_lead last).bind fun _ => (takes_forks 1).bind fun _ => takes_pure _).mono ?_
        omega
      · have hlast : (least - 1) * (n + 4) + (n + 4) ≤ least * (n + 4) := by
          rw [← Nat.succ_mul]
          exact Nat.mul_le_mul_right _ (by omega)
        refine ((takes_exactly h (least - 1)).bind fun before => h.bind fun last =>
          (takes_grow 1 0).bind fun _ => (takes_lead before).bind fun _ =>
          (takes_lead last).bind fun _ => (takes_forks 1).bind fun _ => takes_pure _).mono ?_
        omega

/-- Branches and what they take, with room for the ways to them and on from them. -/
theorem takes_fork {branches : List (Builder Bool)} {costs : List Nat}
    (h : List.Forall₂ Takes branches costs) (hmany : 2 ≤ branches.length) :
    Takes (fork branches) ((costs.map (· + 8)).sum + 64) := by
  cases h with
  | nil => exact absurd hmany (Nat.not_lt_zero 1)
  | @cons first firstCost _ _ hfirst h =>
    cases h with
    | nil => exact absurd hmany (Nat.not_lt.mpr (Nat.le_refl 1))
    | @cons second secondCost more moreCosts hsecond hmore =>
      have heach : Takes (more.forM fun branch => do
          let b ← branch
          forks 1
          lead b) (moreCosts.map (· + 8)).sum := by
        clear hmany
        induction hmore with
        | nil => exact takes_pure ()
        | cons hbranch _ ih =>
          exact (hbranch.bind fun b => (takes_forks 1).bind fun _ => takes_lead b).bind
            fun _ => ih
      refine (hfirst.bind fun f => hsecond.bind fun s => (takes_grow 2 0).bind fun _ =>
        (takes_forks 2).bind fun _ => (takes_lead f).bind fun _ => (takes_lead s).bind fun _ =>
        heach.bind fun _ => takes_pure _).mono ?_
      rw [List.map_cons, List.map_cons, List.sum_cons, List.sum_cons]
      omega

end Bodies

/-! ## Expressions -/

theorem branches_of_words {es : List Expr} {words : List (List Char)}
    (h : es.mapM word? = some words) : es = words.map .word := by
  induction es generalizing words with
  | nil => cases h; rfl
  | cons e rest ih =>
    rw [List.mapM_cons] at h
    obtain ⟨cs, hcs, h⟩ := Option.bind_eq_some_iff.mp h
    obtain ⟨others, hothers, h⟩ := Option.bind_eq_some_iff.mp h
    cases h
    cases e with
    | word => cases hcs; rw [ih hothers]; rfl
    | _ => cases hcs

theorem sum_branches_le (e : Expr) :
    (e.branches.map fun b => b.room + 8).sum ≤ e.room + 8 := by
  induction e with
  | alt a b _ ih =>
    rw [Expr.branches, List.map_cons, List.sum_cons, Expr.room]
    omega
  | _ => exact Nat.le_refl _

theorem sum_words_le (words : List (List Char)) :
    (words.map fun cs => 80 * (encoding cs).length).sum + 4 * words.length + 32 ≤
      (((words.map Expr.word).map Expr.room).map (· + 8)).sum + 64 := by
  induction words with
  | nil => decide
  | cons cs rest ih =>
    simp only [List.map_cons, List.sum_cons, List.length_cons, Expr.room] at ih ⊢
    omega

theorem takes_whole {way : Way} {e : Expr}
    (h : List.Forall₂ (fun m b => Takes m (Expr.room b)) (plan way e) e.branches) :
    Takes (whole way e (plan way e)) e.room := by
  cases e with
  | alt a b =>
    have hroom : (((Expr.alt a b).branches.map Expr.room).map (· + 8)).sum + 64 ≤
        (Expr.alt a b).room := by
      have hsum := sum_branches_le b
      rw [List.map_map, Expr.branches, List.map_cons, List.sum_cons, Expr.room]
      change a.room + 8 + (b.branches.map fun b => b.room + 8).sum + 64 ≤ _
      omega
    rw [whole, words?]
    cases hwords : (Expr.alt a b).branches.mapM word? with
    | some words =>
      refine (takes_ofWords way words).mono (Nat.le_trans ?_ hroom)
      rw [branches_of_words hwords]
      exact sum_words_le words
    | none =>
      refine (takes_fork (List.forall₂_map_right_iff.mpr h) ?_).mono hroom
      rw [h.length_eq]
      cases b <;> exact Nat.le_add_left 2 _
  | _ => exact (List.forall₂_cons.mp h).1

theorem takes_plan (way : Way) (e : Expr) :
    List.Forall₂ (fun m b => Takes m (Expr.room b)) (plan way e) e.branches := by
  induction e with
  | empty => exact .cons (((takes_grow 1 0).bind fun _ => takes_pure _).mono (by decide)) .nil
  | word cs =>
    refine .cons (((takes_grow _ 0).bind fun _ => takes_pure _).mono ?_) .nil
    rw [Expr.room]
    omega
  | set s => exact .cons (takes_ofSet way s) .nil
  | look l =>
    exact .cons (((takes_grow 1 0).bind fun _ => takes_pure _).mono (Nat.le_refl 32)) .nil
  | capture index e ih =>
    refine .cons ?_ .nil
    cases way with
    | forward =>
      refine ((takes_grow 1 0).bind fun _ => (takes_whole ih).bind fun last =>
        (takes_grow 1 0).bind fun _ => (takes_lead last).bind fun _ => takes_pure _).mono ?_
      rw [Expr.room]
      omega
    | backward => exact (takes_whole ih).mono (Nat.le_add_right ..)
  | seq a b iha ihb =>
    refine .cons ?_ .nil
    cases way with
    | forward =>
      refine ((takes_whole iha).bind fun last => takes_again (takes_whole ihb) 1 last).mono ?_
      rw [Expr.room]
      omega
    | backward =>
      refine ((takes_whole ihb).bind fun last => takes_again (takes_whole iha) 1 last).mono ?_
      rw [Expr.room]
      omega
  | alt a b iha ihb => exact .cons (takes_whole iha) ihb
  | rep least most greedy e ih => exact .cons (takes_repetition (takes_whole ih) _ _ _) .nil

theorem takes_build (way : Way) (e : Expr) : Takes (build way e) (e.room + 216) := by
  have hwhole : Takes (whole way (.capture 0 e) (plan way (.capture 0 e))) (e.room + 68) :=
    takes_whole (takes_plan way _)
  rw [build]
  split
  · refine ((takes_grow 1 0).bind fun _ => hwhole.bind fun last => (takes_grow 1 0).bind fun _ =>
      (takes_lead last).bind fun _ => takes_lead _).mono ?_
    omega
  · refine ((takes_grow 3 8).bind fun _ => (takes_forks 1).bind fun _ => hwhole.bind fun last =>
      (takes_grow 1 0).bind fun _ => (takes_lead last).bind fun _ => takes_lead _).mono ?_
    omega

/-- No expression is refused while its estimate stays within the limit. -/
theorem fits_of_room_le {e : Expr} (h : e.room + 216 ≤ maxBytes) : fits e = true := by
  have hsome : ∀ way, ((build way e).run {}).isSome = true := by
    intro way
    obtain ⟨a, r, hr, -⟩ := takes_build way e {} (by simpa [Room.bytes] using h)
    exact Option.isSome_iff_exists.mpr ⟨_, hr⟩
  rw [fits, hsome, hsome]
  exact Bool.or_true _

end Automaton

end Verdict.Pattern
