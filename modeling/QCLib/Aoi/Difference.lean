import QCLib.Aoi.TowerAoi

/-!
# The three-way set difference

`MoveOject` walks two id sets in ascending order, side by side, and sorts every id into one of three
output sets: only in the new set, in both, only in the old one. Nothing is ever removed from an
output set, so the outputs are the initial contents together with the difference.

The walk is correct because both sequences ascend: when the front of one is below the front of the
other it is below everything in the other, so it can be classified at once.

The source calls the function `MoveOject`, and so does the model. `mem_moveLoop` is the induction:
it follows the recursion of the loop, and its hypothesis is that both lists ascend. `moveOject_eq`
puts it into the terms of sets, with the initial contents of the outputs as they are, since the
callers pass sets that are not empty.
-/

namespace QCLib

namespace TowerAoi

/-- The ids of a set, in the order an iterator visits them, ascend. -/
theorem pairwise_toList (s : ObjectSet) : s.toList.Pairwise (· < ·) :=
  s.ordered_toList.imp fun h ↦ Std.compare_eq_lt.1 h

/-- An id below the front of an ascending sequence is not in it. -/
private theorem not_mem_of_lt {i n : ObjectId} {ns : List ObjectId}
    (hns : (n :: ns).Pairwise (· < ·)) (h : i < n) : i ∉ n :: ns := by
  intro hmem
  rcases List.mem_cons.1 hmem with rfl | hmem
  · exact Std.lt_irrefl h
  · exact Std.lt_irrefl (Std.lt_trans h (List.rel_of_pairwise_cons hns hmem))

/-- **The loop sorts every id into its output set**, keeping what was there. -/
theorem mem_moveLoop {os ns : List ObjectId} (hos : os.Pairwise (· < ·))
    (hns : ns.Pairwise (· < ·)) (out : DiffSets) (i : ObjectId) :
    (i ∈ (moveLoop os ns out).insert ↔ i ∈ out.insert ∨ i ∈ ns ∧ i ∉ os) ∧
      (i ∈ (moveLoop os ns out).same ↔ i ∈ out.same ∨ i ∈ os ∧ i ∈ ns) ∧
      (i ∈ (moveLoop os ns out).remove ↔ i ∈ out.remove ∨ i ∈ os ∧ i ∉ ns) := by
  fun_induction moveLoop os ns out with
  | case1 out o os n ns hgt ih =>
    -- `n` is below every remaining old id, so it is new.
    have hn := not_mem_of_lt hos hgt
    obtain ⟨h₁, h₂, h₃⟩ := ih hos hns.of_cons
    rw [h₁, h₂, h₃]
    by_cases hi : i = n
    · subst hi
      simp [hn]
    · simp [hi, Ne.symm hi]
  | case2 out o os n ns hle hlt ih =>
    -- `o` is below every remaining new id, so it is gone.
    have ho := not_mem_of_lt hns hlt
    obtain ⟨h₁, h₂, h₃⟩ := ih hos.of_cons hns
    rw [h₁, h₂, h₃]
    by_cases hi : i = o
    · subst hi
      simp [ho]
    · simp [hi, Ne.symm hi]
  | case3 out o os n ns hle hge ih =>
    have hon : o = n := by
      rcases Std.lt_trichotomy o n with h | h | h
      · exact absurd h hge
      · exact h
      · exact absurd h hle
    subst hon
    have hos' : o ∉ os := fun h ↦ Std.lt_irrefl (List.rel_of_pairwise_cons hos h)
    have hns' : o ∉ ns := fun h ↦ Std.lt_irrefl (List.rel_of_pairwise_cons hns h)
    obtain ⟨h₁, h₂, h₃⟩ := ih hos.of_cons hns.of_cons
    rw [h₁, h₂, h₃]
    by_cases hi : i = o
    · subst hi
      simp [hos', hns']
    · simp [hi, Ne.symm hi]
  | case4 out os => simp
  | case5 out ns hne => simp

/-- **The three output sets of `MoveOject`.** -/
theorem mem_moveOject (oldt newt : ObjectSet) (out : DiffSets) (i : ObjectId) :
    (i ∈ (moveOject oldt newt out).insert ↔ i ∈ out.insert ∨ i ∈ newt ∧ i ∉ oldt) ∧
      (i ∈ (moveOject oldt newt out).same ↔ i ∈ out.same ∨ i ∈ oldt ∧ i ∈ newt) ∧
      (i ∈ (moveOject oldt newt out).remove ↔ i ∈ out.remove ∨ i ∈ oldt ∧ i ∉ newt) := by
  simpa [moveOject] using mem_moveLoop (pairwise_toList oldt) (pairwise_toList newt) out i

/-- **What `MoveOject` leaves in the output sets**, whatever was in them. -/
theorem moveOject_eq (oldt newt : ObjectSet) (out : DiffSets) :
    moveOject oldt newt out =
      ⟨out.insert ∪ (newt \ oldt), out.same ∪ (oldt ∩ newt), out.remove ∪ (oldt \ newt)⟩ := by
  have h := mem_moveOject oldt newt out
  have hinsert : (moveOject oldt newt out).insert = out.insert ∪ (newt \ oldt) := by
    ext i
    simpa using (h i).1
  have hsame : (moveOject oldt newt out).same = out.same ∪ (oldt ∩ newt) := by
    ext i
    simpa using (h i).2.1
  have hremove : (moveOject oldt newt out).remove = out.remove ∪ (oldt \ newt) := by
    ext i
    simpa using (h i).2.2
  rw [← hinsert, ← hsame, ← hremove]

/-- Into empty sets it writes the two differences and the intersection. -/
theorem moveOject_empty (oldt newt : ObjectSet) :
    moveOject oldt newt {} = ⟨newt \ oldt, oldt ∩ newt, oldt \ newt⟩ := by
  have h := mem_moveOject oldt newt {}
  have hinsert : (moveOject oldt newt {}).insert = newt \ oldt := by
    ext i
    simpa using (h i).1
  have hsame : (moveOject oldt newt {}).same = oldt ∩ newt := by
    ext i
    simpa using (h i).2.1
  have hremove : (moveOject oldt newt {}).remove = oldt \ newt := by
    ext i
    simpa using (h i).2.2
  rw [← hinsert, ← hsame, ← hremove]

end TowerAoi

end QCLib
