import Mathlib.Data.Finset.Max
import QCLib.Gateway.TableObjectMap

/-!
# Splitting bind items

`GetBindItems` looks for the separator and goes on one byte behind where it begins, so every piece
but the first keeps the rest of the separator at its front. With a separator of one byte there is
no rest, and splitting is the inverse of joining.

With a longer one the pieces are the wrong ones (`getBindItems_joined` says which), and still the
*set* of them can be right: when a separator at the end leaves its rest as a piece of its own, and
the items are that rest, twice that rest and so on, the longest first.

Separator and items are strings of bytes here, and the loop gets their texts (`CStrings.ofBytes`).
Whether a separator of three bytes is one letter in some encoding is nothing that it knows: it is a
separator of three bytes.

The loop is followed for any list of items and any separator. `bindItemsLoop_clean` needs that the
pieces can be told apart at all (`Clean`), which is no assumption about the code but about the
items; without it there is no joining to be inverted. What comes out then is a question about sets
of texts, and `pieces_iff` answers it: with a staircase of the rest at the end, or with a rest that
is empty.

All of this is about lists over an arbitrary alphabet, and is brought to bytes at the end by an
injective map (`pieces_map`).
-/

namespace QCLib

open CStrings

/-! ### Joining -/

section Joining

variable {α β : Type} {sep rest u : List α} {items : List (List α)} {trailing : Bool}

/-- The items with the separator between them, and perhaps once more at the end. -/
def joined (sep : List α) (items : List (List α)) (trailing : Bool) : List α :=
  sep.intercalate items ++ if trailing then sep else []

/-- Wherever the separator occurs in the joined items, it is there because it was put there, behind
one of the items. -/
def OnlyJoints (sep : List α) (items : List (List α)) (trailing : Bool) : Prop :=
  ∀ before after, joined sep items trailing = before ++ sep ++ after →
    ∃ l r, items = l ++ r ∧ l ≠ [] ∧ before = sep.intercalate l

/-- What is behind the first item. -/
def behind (sep : List α) (items : List (List α)) (trailing : Bool) : List α :=
  (items.flatMap fun item ↦ sep ++ item) ++ if trailing then sep else []

/-- `OnlyJoints` for a text that the loop has before it: the first item, or what the loop takes for
it, and what is behind it. -/
def Clean (sep u : List α) (items : List (List α)) (trailing : Bool) : Prop :=
  ∀ before after, u ++ behind sep items trailing = before ++ sep ++ after →
    ∃ l r, items = l ++ r ∧ before = u ++ l.flatMap fun item ↦ sep ++ item

/-- The pieces that the loop makes of it. -/
def pieces [DecidableEq α] (rest u : List α) (items : List (List α)) (trailing : Bool) :
    List (List α) :=
  u :: (items.map fun item ↦ rest ++ item) ++ if trailing ∧ rest ≠ [] then [rest] else []

/-- A list with separators between its elements is the first one, and a separator in front of each
of the others. -/
theorem intercalate_eq_append_flatMap (sep item : List α) (items : List (List α)) :
    sep.intercalate (item :: items) = item ++ items.flatMap fun item ↦ sep ++ item := by
  induction items generalizing item with
  | nil => simp
  | cons y items ih =>
    rw [List.intercalate_cons_of_ne_nil (List.cons_ne_nil _ _), ih, List.flatMap_cons,
      List.append_assoc, List.append_assoc]

theorem joined_cons (sep item : List α) (items : List (List α)) (trailing : Bool) :
    joined sep (item :: items) trailing = item ++ behind sep items trailing := by
  rw [joined, intercalate_eq_append_flatMap, behind, List.append_assoc]

/-- It does not matter whether the parts or the whole are mapped. -/
theorem behind_map (f : α → β) (sep : List α) (items : List (List α)) (trailing : Bool) :
    behind (sep.map f) (items.map (List.map f)) trailing = (behind sep items trailing).map f := by
  rw [behind, behind, List.map_append, List.map_flatMap, List.flatMap_map]
  cases trailing <;> simp

theorem pieces_map [DecidableEq α] [DecidableEq β] (f : α → β) (rest u : List α)
    (items : List (List α)) (trailing : Bool) :
    pieces (rest.map f) (u.map f) (items.map (List.map f)) trailing =
      (pieces rest u items trailing).map (List.map f) := by
  rw [pieces, pieces, List.map_append, List.map_cons, List.map_map, List.map_map]
  congr 1
  · simp [Function.comp_def]
  · simp only [ne_eq, List.map_eq_nil_iff]
    split_ifs <;> rfl

namespace Clean

/-- Where the separator is the first item's joint has been reached, and not before. -/
theorem length_le (h : Clean sep u items trailing) {before after : List α}
    (heq : u ++ behind sep items trailing = before ++ sep ++ after) :
    u.length ≤ before.length := by
  obtain ⟨l, r, -, hbefore⟩ := h before after heq
  rw [hbefore, List.length_append]
  exact Nat.le_add_right _ _

/-- A clean text stays clean when one item is read off it: what is behind the joint can be split in
the same way. -/
theorem tail {c : α} {y : List α} (h : Clean (c :: rest) u (y :: items) trailing) :
    Clean (c :: rest) (rest ++ y) items trailing := by
  intro before after heq
  have htext : u ++ behind (c :: rest) (y :: items) trailing =
      (u ++ c :: before) ++ (c :: rest) ++ after := by
    rw [behind, List.flatMap_cons, List.append_assoc, ← behind]
    simp only [List.append_assoc, List.cons_append] at heq ⊢
    rw [heq]
  obtain ⟨l, r, hitems, hbefore⟩ := h _ _ htext
  have hl := List.append_cancel_left hbefore
  cases l with
  | nil => exact absurd hl (List.cons_ne_nil _ _)
  | cons y' l =>
    rw [List.cons_append, List.cons.injEq] at hitems
    obtain ⟨rfl, rfl⟩ := hitems
    refine ⟨l, r, rfl, ?_⟩
    rw [List.flatMap_cons, List.cons_append, List.cons_append, List.cons.injEq] at hl
    rw [hl.2]

/-- A clean string of bytes is a clean text, one character for each byte. An injective map finds no
separator where there was none. -/
theorem map {f : α → β} (hf : Function.Injective f) (h : Clean sep u items trailing) :
    Clean (sep.map f) (u.map f) (items.map (List.map f)) trailing := by
  intro before after heq
  rw [behind_map, ← List.map_append, List.map_eq_append_iff] at heq
  obtain ⟨front, after', htext, hfront, -⟩ := heq
  obtain ⟨before', sep', rfl, rfl, hsep⟩ := List.map_eq_append_iff.1 hfront
  obtain rfl : sep' = sep := (List.map_inj_right fun _ _ heq ↦ hf heq).1 hsep
  obtain ⟨l, r, rfl, rfl⟩ := h before' after' htext
  refine ⟨l.map (List.map f), r.map (List.map f), List.map_append, ?_⟩
  rw [List.map_append, List.map_flatMap, List.flatMap_map]
  simp only [List.map_append]

/-- The joined items are clean behind the first one when the separator is at the joints only. -/
theorem of_onlyJoints {item : List α} (h : OnlyJoints sep (item :: items) trailing) :
    Clean sep item items trailing := by
  intro before after heq
  rw [← joined_cons] at heq
  obtain ⟨l, r, hsplit, hne, rfl⟩ := h before after heq
  cases l with
  | nil => exact absurd rfl hne
  | cons y l =>
    rw [List.cons_append, List.cons.injEq] at hsplit
    obtain ⟨rfl, rfl⟩ := hsplit
    exact ⟨l, r, rfl, intercalate_eq_append_flatMap _ _ _⟩

end Clean

end Joining

/-! ### The loop -/

section Loop

variable {sep rest u : List Char} {c : Char} {items : List (List Char)} {trailing : Bool}

/-- The next joint is the first place where the separator is. -/
private theorem strstr_joint {y : List Char}
    (hclean : ∀ before after, u ++ (sep ++ y) = before ++ sep ++ after → u.length ≤ before.length) :
    strstr (u ++ (sep ++ y)) sep = some u.length := by
  refine strstr_eq_some_iff.2 ⟨?_, fun m hm hfront ↦ ?_⟩
  · rw [List.drop_left]
    exact List.prefix_append _ _
  · obtain ⟨after, hafter⟩ := hfront
    have hle : m ≤ (u ++ (sep ++ y)).length := by
      rw [List.length_append]
      omega
    have hlen := hclean ((u ++ (sep ++ y)).take m) after
      (by rw [List.append_assoc, hafter, List.take_append_drop])
    rw [List.length_take_of_le hle] at hlen
    omega

/-- One turn at a joint goes on behind the first character of the separator. -/
private theorem bindItemsLoop_joint {y : List Char} {n : ℕ} {acc : Std.ExtTreeSet String}
    (hclean : ∀ before after, u ++ (c :: rest ++ y) = before ++ (c :: rest) ++ after →
      u.length ≤ before.length) :
    bindItemsLoop (c :: rest) (n + 1) (u ++ (c :: rest ++ y)) acc =
      bindItemsLoop (c :: rest) n (rest ++ y) (acc.insert (String.ofList u)) := by
  rw [bindItemsLoop_of_some (strstr_joint hclean) (by simp), List.drop_length_add_append,
    List.take_left]
  rfl

private theorem mem_insert_ofList {acc : Std.ExtTreeSet String} {s : String} :
    s ∈ acc.insert (String.ofList u) ↔ s ∈ acc ∨ s.toList = u := by
  rw [Std.ExtTreeSet.mem_insert, Std.compare_eq_iff_eq, or_comm, ← String.toList_inj,
    String.toList_ofList, eq_comm]

/-- **What the loop collects**, in a text where separators are at joints only. -/
theorem bindItemsLoop_clean (hu : u ≠ []) (hitems : ∀ item ∈ items, item ≠ [])
    (hclean : Clean (c :: rest) u items trailing) {n : ℕ}
    (hn : (u ++ behind (c :: rest) items trailing).length < n) (acc : Std.ExtTreeSet String) :
    ∃ set, bindItemsLoop (c :: rest) n (u ++ behind (c :: rest) items trailing) acc = some set ∧
      ∀ s, s ∈ set ↔ s ∈ acc ∨ s.toList ∈ pieces rest u items trailing := by
  obtain ⟨n, rfl⟩ : ∃ k, n = k + 1 := ⟨n - 1, by omega⟩
  -- over the items: the rest of a separator that was found stands before the next item
  induction items generalizing u n acc with
  | nil =>
    cases trailing with
    | false =>
      -- no separator is left, so that the whole of `u` is the last piece
      have htext : u ++ behind (c :: rest) [] false = u := by simp [behind]
      rw [htext] at hn ⊢
      have hnone : strstr u (c :: rest) = none := by
        refine strstr_eq_none_iff.2 fun m hm ↦ ?_
        obtain ⟨after, hafter⟩ := hm
        have heq : u ++ behind (c :: rest) [] false = u.take m ++ (c :: rest) ++ after := by
          rw [htext, List.append_assoc, hafter, List.take_append_drop]
        have hlen := congrArg List.length heq
        have hle := hclean.length_le heq
        rw [htext, List.length_append, List.length_append, List.length_cons] at hlen
        omega
      refine ⟨_, bindItemsLoop_of_none hnone, fun s ↦ ?_⟩
      rw [if_neg hu, mem_insert_ofList]
      simp [pieces]
    | true =>
      -- one separator is left, and what stands behind its first byte is the last piece
      have htext : u ++ behind (c :: rest) [] true = u ++ (c :: rest ++ []) := by simp [behind]
      have hjoint : ∀ before after, u ++ (c :: rest ++ []) = before ++ (c :: rest) ++ after →
          u.length ≤ before.length := fun before after heq ↦ hclean.length_le (htext.trans heq)
      obtain ⟨n, rfl⟩ : ∃ k, n = k + 1 := by
        rw [htext, List.length_append, List.length_append, List.length_cons] at hn
        exact ⟨n - 1, by omega⟩
      have hnone : strstr rest (c :: rest) = none := by
        refine strstr_eq_none_iff.2 fun m hm ↦ ?_
        have hlen := hm.length_le
        rw [List.length_cons, List.length_drop] at hlen
        omega
      rw [htext, bindItemsLoop_joint hjoint, List.append_nil, bindItemsLoop_of_none hnone]
      refine ⟨_, rfl, fun s ↦ ?_⟩
      split_ifs with hrest
      · rw [mem_insert_ofList]
        simp [pieces, hrest]
      · rw [mem_insert_ofList, mem_insert_ofList]
        simp [pieces, hrest, or_assoc]
  | cons y items ih =>
    obtain ⟨hy, hitems⟩ := List.forall_mem_cons.1 hitems
    have htext : u ++ behind (c :: rest) (y :: items) trailing =
        u ++ (c :: rest ++ (y ++ behind (c :: rest) items trailing)) := by
      rw [behind, List.flatMap_cons, List.append_assoc, List.append_assoc, ← behind]
    have hjoint : ∀ before after, u ++ (c :: rest ++ (y ++ behind (c :: rest) items trailing)) =
        before ++ (c :: rest) ++ after → u.length ≤ before.length :=
      fun before after heq ↦ hclean.length_le (htext.trans heq)
    rw [htext] at hn
    have hn' : (rest ++ y ++ behind (c :: rest) items trailing).length < n := by
      simp only [List.length_append, List.length_cons] at hn ⊢
      omega
    obtain ⟨k, rfl⟩ : ∃ k, n = k + 1 := ⟨n - 1, by omega⟩
    obtain ⟨set, hset, hmem⟩ := ih (u := rest ++ y) (by simp [hy]) hitems hclean.tail
      (acc.insert (String.ofList u)) k hn'
    refine ⟨set, ?_, fun s ↦ ?_⟩
    · rw [htext, bindItemsLoop_joint hjoint, ← List.append_assoc]
      exact hset
    · rw [hmem, mem_insert_ofList]
      simp [pieces, or_assoc]

end Loop

/-! ### When the pieces are the items -/

section Pieces

variable {α : Type} {t x : List α} {R : List (List α)} {trailing : Bool}

/-- The text some number of times. -/
def times (n : ℕ) (text : List α) : List α := (List.replicate n text).flatten

theorem times_succ (n : ℕ) (text : List α) : times (n + 1) text = text ++ times n text := by
  rw [times, List.replicate_succ, List.flatten_cons, times]

theorem times_one (text : List α) : times 1 text = text := by
  rw [times_succ, times, List.replicate_zero, List.flatten_nil, List.append_nil]

theorem length_times (n : ℕ) (text : List α) : (times n text).length = n * text.length := by
  simp [times]

/-- The first item is the text some number of times, and the others are the text fewer times, with
no number left out. -/
def Staircase (text : List α) : List (List α) → Prop
  | [] => False
  | first :: others => ∃ m, 1 ≤ m ∧ first = times m text ∧
      ∀ item, item ∈ others ↔ ∃ k, 1 ≤ k ∧ k < m ∧ item = times k text

/-- When every item can be made longer by `t`, only the first item can take up the longest. -/
private theorem eq_append_longest [DecidableEq α] (ht : t ≠ []) (hR : R ≠ [])
    (hlonger : ∀ y ∈ R, t ++ y ∈ x :: R) :
    ∃ L ∈ R, x = t ++ L ∧ (∀ y ∈ R, y.length ≤ L.length) ∧ x ∉ R := by
  obtain ⟨L, hL, hmax⟩ :=
    R.toFinset.exists_max_image List.length ((List.toFinset_nonempty_iff R).2 hR)
  rw [List.mem_toFinset] at hL
  have hmax' : ∀ y ∈ R, y.length ≤ L.length := fun y hy ↦ hmax y (List.mem_toFinset.2 hy)
  have hpos : 0 < t.length := List.length_pos_iff.2 ht
  have hnot : t ++ L ∉ R := fun h ↦ by
    have hle := hmax' _ h
    rw [List.length_append] at hle
    omega
  have hx : x = t ++ L := ((List.mem_cons.1 (hlonger L hL)).resolve_right hnot).symm
  exact ⟨L, hL, hx, hmax', hx ▸ hnot⟩

/-- When every item is `t`, or `t` in front of another one, the items go down to `t` in steps. -/
private theorem exists_eq_times (ht : t ≠ [])
    (hshorter : ∀ y ∈ R, y = t ∨ ∃ y' ∈ R, y = t ++ y') {y : List α} (hy : y ∈ R) :
    ∃ k, 1 ≤ k ∧ y = times k t ∧ ∀ j, 1 ≤ j → j ≤ k → times j t ∈ R := by
  induction hn : y.length using Nat.strong_induction_on generalizing y with
  | _ n ih =>
    have hpos : 0 < t.length := List.length_pos_iff.2 ht
    rcases hshorter y hy with rfl | ⟨y', hy', rfl⟩
    · refine ⟨1, le_rfl, (times_one y).symm, fun j hj hj' ↦ ?_⟩
      obtain rfl : j = 1 := by omega
      rwa [times_one]
    · have hlt : y'.length < n := by
        rw [← hn, List.length_append]
        omega
      obtain ⟨k, hk, rfl, hdown⟩ := ih _ hlt hy' rfl
      refine ⟨k + 1, by omega, (times_succ k t).symm, fun j hj hj' ↦ ?_⟩
      rcases Nat.lt_or_ge k j with hlt | hge
      · obtain rfl : j = k + 1 := by omega
        rwa [times_succ]
      · exact hdown j hj hge

/-- **The pieces and the items**, for a separator with a rest. -/
theorem pieces_iff [DecidableEq α] (ht : t ≠ []) :
    (∀ s, s ∈ pieces t x R trailing ↔ s ∈ x :: R) ↔
      (R = [] ∧ trailing = false) ∨ (trailing = true ∧ Staircase t (x :: R)) := by
  constructor
  · intro h
    have hlonger : ∀ y ∈ R, t ++ y ∈ x :: R := fun y hy ↦ (h _).1 (by simp [pieces, hy])
    cases trailing with
    | false =>
      refine .inl ⟨?_, rfl⟩
      by_contra hR
      obtain ⟨L, hL, -, -, hx⟩ := eq_append_longest ht hR hlonger
      have hshorter : ∀ y ∈ R, y = t ∨ ∃ y' ∈ R, y = t ++ y' := by
        intro y hy
        have hpiece := (h y).2 (List.mem_cons_of_mem x hy)
        simp only [pieces, List.mem_cons, List.cons_append, List.mem_append, List.mem_map] at hpiece
        rcases hpiece with rfl | ⟨y', hy', rfl⟩ | hnil
        · exact absurd hy hx
        · exact .inr ⟨y', hy', rfl⟩
        · simp at hnil
      -- The shortest item would have a shorter one in it.
      obtain ⟨k, hk, rfl, hdown⟩ := exists_eq_times ht hshorter hL
      have hone : t ∈ R := times_one t ▸ hdown 1 le_rfl hk
      have hpiece := (h t).2 (List.mem_cons_of_mem x hone)
      simp only [pieces, List.mem_cons, List.cons_append, List.mem_append, List.mem_map] at hpiece
      rcases hpiece with rfl | ⟨y', hy', heq⟩ | hnil
      · exact hx hone
      · obtain rfl : y' = [] := List.append_right_eq_self.1 heq
        obtain ⟨k', hk', heq', -⟩ := exists_eq_times ht hshorter hy'
        have hlen := congrArg List.length heq'
        have hpos : 0 < k' * t.length := Nat.mul_pos hk' (List.length_pos_iff.2 ht)
        rw [length_times, List.length_nil] at hlen
        omega
      · simp at hnil
    | true =>
      have hshorter' : ∀ y ∈ R, y ≠ x → y = t ∨ ∃ y' ∈ R, y = t ++ y' := by
        intro y hy hne
        have hpiece := (h y).2 (List.mem_cons_of_mem x hy)
        simp only [pieces, ht, ne_eq, not_false_eq_true, and_self, if_true, List.mem_cons,
          List.cons_append, List.mem_append, List.mem_map, List.not_mem_nil, or_false] at hpiece
        rcases hpiece with rfl | ⟨y', hy', rfl⟩ | rfl
        · exact absurd rfl hne
        · exact .inr ⟨y', hy', rfl⟩
        · exact .inl rfl
      refine .inr ⟨rfl, ?_⟩
      rcases eq_or_ne R [] with rfl | hR
      · have hpiece := (h t).1 (by simp [pieces, ht])
        obtain rfl := List.mem_singleton.1 hpiece
        refine ⟨1, le_rfl, (times_one t).symm, fun s ↦ iff_of_false List.not_mem_nil ?_⟩
        rintro ⟨k, hk, hk', -⟩
        omega
      · obtain ⟨L, hL, hxL, hmax, hx⟩ := eq_append_longest ht hR hlonger
        have hshorter : ∀ y ∈ R, y = t ∨ ∃ y' ∈ R, y = t ++ y' := fun y hy ↦
          hshorter' y hy fun heq ↦ hx (heq ▸ hy)
        obtain ⟨k, hk, rfl, hdown⟩ := exists_eq_times ht hshorter hL
        refine ⟨k + 1, by omega, hxL.trans (times_succ k t).symm, fun s ↦ ⟨fun hs ↦ ?_, ?_⟩⟩
        · obtain ⟨j, hj, rfl, -⟩ := exists_eq_times ht hshorter hs
          have hle := hmax _ hs
          rw [length_times, length_times] at hle
          have hjk := Nat.le_of_mul_le_mul_right hle (List.length_pos_iff.2 ht)
          exact ⟨j, hj, by omega, rfl⟩
        · rintro ⟨j, hj, hj', rfl⟩
          exact hdown j hj (by omega)
  · rintro (⟨rfl, rfl⟩ | ⟨rfl, m, hm, rfl, hR⟩) s
    · simp [pieces]
    · simp only [pieces, ht, ne_eq, not_false_eq_true, and_self, if_true, List.mem_cons,
        List.cons_append, List.mem_append, List.mem_map, List.not_mem_nil, or_false, hR]
      constructor
      · rintro (rfl | ⟨y, ⟨k, hk, hk', rfl⟩, rfl⟩ | rfl)
        · exact .inl rfl
        · rcases Nat.lt_or_ge (k + 1) m with hlt | hge
          · exact .inr ⟨k + 1, by omega, hlt, (times_succ k t).symm⟩
          · obtain rfl : m = k + 1 := by omega
            exact .inl (times_succ k t).symm
        · rcases Nat.lt_or_ge 1 m with hlt | hge
          · exact .inr ⟨1, le_rfl, hlt, (times_one s).symm⟩
          · obtain rfl : m = 1 := by omega
            exact .inl (times_one s).symm
      · rintro (rfl | ⟨k, hk, hk', rfl⟩)
        · exact .inl rfl
        · rcases Nat.lt_or_ge 1 k with hlt | hge
          · refine .inr (.inl ⟨times (k - 1) t, ⟨k - 1, by omega, by omega, rfl⟩, ?_⟩)
            rw [← times_succ, Nat.sub_add_cancel hk]
          · obtain rfl : k = 1 := by omega
            exact .inr (.inr (times_one t))

end Pieces

/-! ### `GetBindItems` -/

variable {sep item : List UInt8} {items : List (List UInt8)} {trailing : Bool}

/-- Splitting the joined items gives the set of the items. -/
def SplitsBack (sep : List UInt8) (items : List (List UInt8)) (trailing : Bool) : Prop :=
  ∃ set, getBindItems (ofBytes sep) (some (ofBytes (joined sep items trailing))) = some set ∧
    ∀ s, s ∈ set ↔ ∃ item ∈ items, ofBytes item = s

/-- **What `GetBindItems` makes of joined items.** -/
theorem getBindItems_joined (hsep : sep ≠ []) (hitems : ∀ s ∈ item :: items, s ≠ [])
    (hjoints : OnlyJoints sep (item :: items) trailing) :
    ∃ set, getBindItems (ofBytes sep) (some (ofBytes (joined sep (item :: items) trailing))) =
        some set ∧
      ∀ s, s ∈ set ↔ ∃ piece ∈ pieces sep.tail item items trailing, ofBytes piece = s := by
  obtain ⟨c, rest, rfl⟩ := List.exists_cons_of_ne_nil hsep
  obtain ⟨hitem, hitems⟩ := List.forall_mem_cons.1 hitems
  have htexts : ∀ text ∈ items.map (List.map Char.ofUInt8), text ≠ [] :=
    List.forall_mem_map.2 fun s hs ↦ mt List.map_eq_nil_iff.1 (hitems s hs)
  obtain ⟨set, hset, hmem⟩ := bindItemsLoop_clean (mt List.map_eq_nil_iff.1 hitem) htexts
    ((Clean.of_onlyJoints hjoints).map ofUInt8_injective) (Nat.lt_succ_self _) ∅
  refine ⟨set, ?_, fun s ↦ ?_⟩
  · rw [← List.map_cons, behind_map, ← List.map_append, ← joined_cons] at hset
    rw [getBindItems, toList_ofBytes, ← hset, ← String.length_toList, toList_ofBytes]
  · rw [hmem, pieces_map, List.mem_map, List.tail_cons,
      or_iff_right Std.ExtTreeSet.not_mem_empty]
    simp only [← toList_ofBytes, String.toList_inj]

/-- **When splitting inverts joining.** A separator of one byte always does, since the loop goes on
one byte behind the place where the separator begins; one item without a separator behind it does as
well. A longer separator works only where each step of one byte lands on the next one, which the
staircase says. -/
theorem splitsBack_iff (hsep : sep ≠ []) (hitems : ∀ item ∈ items, item ≠ [])
    (hjoints : OnlyJoints sep items trailing) :
    SplitsBack sep items trailing ↔ sep.length = 1 ∨ (items.length ≤ 1 ∧ trailing = false) ∨
      (trailing = true ∧ Staircase sep.tail items) := by
  cases items with
  | nil =>
    cases trailing with
    | true =>
      -- A separator alone is behind no item.
      obtain ⟨l, r, hsplit, hne, -⟩ := hjoints [] [] (by simp [joined])
      exact absurd (List.append_eq_nil_iff.1 hsplit.symm).1 hne
    | false =>
      refine iff_of_true ⟨∅, ?_, fun s ↦ by simp⟩ (.inr (.inl ⟨Nat.zero_le 1, rfl⟩))
      obtain ⟨c, rest, rfl⟩ := List.exists_cons_of_ne_nil hsep
      have hnone : strstr [] (ofBytes (c :: rest)).toList = none := by
        rw [toList_ofBytes, strstr_eq_none_iff]
        simp
      exact bindItemsLoop_of_none hnone
  | cons item items =>
    obtain ⟨set, hset, hmem⟩ := getBindItems_joined hsep hitems hjoints
    have hback : SplitsBack sep (item :: items) trailing ↔
        ∀ s, s ∈ pieces sep.tail item items trailing ↔ s ∈ item :: items := by
      constructor
      · rintro ⟨set', hset', hmem'⟩ s
        obtain rfl := Option.some.inj (hset.symm.trans hset')
        have hs := (hmem (ofBytes s)).symm.trans (hmem' _)
        simpa only [ofBytes_injective.eq_iff, exists_eq_right] using hs
      · intro h
        exact ⟨set, hset, fun s ↦ by simp only [hmem, h]⟩
    rw [hback]
    rcases eq_or_ne sep.tail [] with hrest | hrest
    · have hone : sep.length = 1 := by
        have hpos := List.length_pos_iff.2 hsep
        have hlen := congrArg List.length hrest
        rw [List.length_tail, List.length_nil] at hlen
        omega
      refine iff_of_true (fun s ↦ ?_) (.inl hone)
      simp [pieces, hrest]
    · have hone : sep.length ≠ 1 := by
        have hpos := List.length_pos_iff.2 hrest
        rw [List.length_tail] at hpos
        omega
      rw [pieces_iff hrest, or_iff_right hone]
      simp

/-- The items `a` and `b` with the separator of the shipped configuration, a colon. -/
theorem splitsBack_colon : SplitsBack [58] [[97], [98]] false ↔
    ([58] : List UInt8).length = 1 ∨ ([[97], [98]] : List (List UInt8)).length ≤ 1 ∧ false = false ∨
      false = true ∧ Staircase ([58] : List UInt8).tail [[97], [98]] := by
  refine splitsBack_iff (by decide) (by decide) fun before after heq ↦ ?_
  have htext : joined ([58] : List UInt8) [[97], [98]] false = [97, 58, 98] := by decide
  rw [htext] at heq
  rcases before with _ | ⟨x, _ | ⟨y, _ | ⟨z, before⟩⟩⟩
  · simp at heq
  · simp only [List.cons_append, List.nil_append, List.cons.injEq] at heq
    exact ⟨[[97]], [[98]], rfl, by decide, by rw [← heq.1]; decide⟩
  · simp at heq
  · simp at heq

/-- The items `a` and `b` with two colons for a separator: the second one is not found again. -/
theorem not_splitsBack_colons : (∀ item ∈ ([[97], [98]] : List (List UInt8)), item ≠ []) ∧
    OnlyJoints ([58, 58] : List UInt8) [[97], [98]] false ∧
      ¬ SplitsBack [58, 58] [[97], [98]] false := by
  have htext : joined ([58, 58] : List UInt8) [[97], [98]] false = [97, 58, 58, 98] := by decide
  have hjoints : OnlyJoints ([58, 58] : List UInt8) [[97], [98]] false := by
    intro before after heq
    rw [htext] at heq
    rcases before with _ | ⟨x, _ | ⟨y, _ | ⟨z, before⟩⟩⟩
    · simp at heq
    · simp only [List.cons_append, List.nil_append, List.cons.injEq] at heq
      exact ⟨[[97]], [[98]], rfl, by decide, by rw [← heq.1]; decide⟩
    · simp at heq
    · have hlen := congrArg List.length heq
      simp at hlen
      omega
  refine ⟨by decide, hjoints, ?_⟩
  rintro ⟨set, hset, hmem⟩
  obtain ⟨set', hset', hpieces⟩ := getBindItems_joined (by decide) (by decide) hjoints
  obtain rfl := Option.some.inj (hset.symm.trans hset')
  obtain ⟨piece, hpiece, heq⟩ := (hpieces (ofBytes [98])).1 ((hmem _).2 ⟨[98], by decide, rfl⟩)
  obtain rfl := ofBytes_injective heq
  exact absurd hpiece (by decide)

end QCLib
