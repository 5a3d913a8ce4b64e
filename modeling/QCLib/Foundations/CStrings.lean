import Mathlib.Data.List.TakeWhile
import Mathlib.Data.Nat.Find
import Mathlib.Tactic.SplitIfs

/-!
# C strings

A `std::string` is a string of bytes, whatever they encode. Its model is a `String` with one
character for each byte (`ofBytes`): a place in it, a length of it and "the next character" count
bytes, as they do in C.

A `std::string` may hold a NUL, and then it is a shorter text to a function that takes a C string.
Texts without one are the same to both (`cStr_eq_self`).

`strstr` is the C function on lists of characters: the first place where the needle begins. It is
said once what it finds (`strstr_eq_some_iff`, `strstr_isSome_iff`), and the loops that call it
again and again use that description and not its recursion.
-/

namespace CStrings

/-- The text that consists of these bytes, a character for each. -/
def ofBytes (bytes : List UInt8) : String := String.ofList (bytes.map Char.ofUInt8)

/-- `strstr`: where the first occurrence begins. -/
def strstr (haystack needle : List Char) : Option Nat :=
  if needle.isPrefixOf haystack then some 0
  else
    match haystack with
    | [] => none
    | _ :: rest => (strstr rest needle).map (· + 1)

/-- `c_str()`: what a string is to a function that takes a C string. -/
def cStr (s : String) : String := String.ofList (s.toList.takeWhile (· ≠ '\x00'))

/-- A text that is the same as a C string. -/
def NoNul (s : String) : Prop := ∀ c ∈ s.toList, c ≠ '\x00'

instance (s : String) : Decidable (NoNul s) := List.decidableBAll (· ≠ '\x00') s.toList

variable {s t : String}

@[simp] theorem toList_ofBytes (bytes : List UInt8) :
    (ofBytes bytes).toList = bytes.map Char.ofUInt8 := String.toList_ofList

theorem ofUInt8_injective : Function.Injective Char.ofUInt8 := fun _ _ h ↦
  UInt8.toUInt32_inj.1 (congrArg Char.val h)

/-- Two strings of bytes are the same text only if they are the same bytes. -/
theorem ofBytes_injective : Function.Injective ofBytes := fun _ _ h ↦
  (List.map_inj_right fun _ _ heq ↦ ofUInt8_injective heq).1 (String.ofList_injective h)

theorem noNul_append : NoNul (s ++ t) ↔ NoNul s ∧ NoNul t := by
  simp only [NoNul, String.toList_append, List.forall_mem_append]

theorem cStr_append (h : NoNul s) (t : String) : cStr (s ++ t) = s ++ cStr t := by
  have hs : ∀ c ∈ s.toList, decide (c ≠ '\x00') = true := fun c hc ↦ decide_eq_true (h c hc)
  rw [cStr, cStr, String.toList_append, List.takeWhile_append_of_pos hs, String.ofList_append,
    String.ofList_toList]

/-- A text is read as a whole if and only if there is no NUL in it. -/
theorem cStr_eq_self : cStr s = s ↔ NoNul s := by
  rw [← String.toList_inj, cStr, String.toList_ofList, List.takeWhile_eq_self_iff]
  simp only [decide_eq_true_eq, NoNul]

theorem noNul_cStr (s : String) : NoNul (cStr s) := by
  intro c hc
  rw [cStr, String.toList_ofList] at hc
  simpa using List.mem_takeWhile_imp hc

/-! ### Searching -/

/-- At the front of a text it is found at once. -/
private theorem zero_eq_iff {haystack needle : List Char} {n : Nat} (h : needle <+: haystack) :
    some 0 = some n ↔ needle <+: haystack.drop n ∧ ∀ m < n, ¬ needle <+: haystack.drop m := by
  constructor
  · intro hn
    obtain rfl := Option.some.inj hn
    exact ⟨h, fun m hm ↦ absurd hm (Nat.not_lt_zero m)⟩
  · rintro ⟨-, hleast⟩
    rcases Nat.eq_zero_or_pos n with rfl | hpos
    · rfl
    · exact absurd h (hleast 0 hpos)

/-- The result is the least place where the needle is. -/
theorem strstr_eq_some_iff {haystack needle : List Char} {n : Nat} :
    strstr haystack needle = some n ↔
      needle <+: haystack.drop n ∧ ∀ m < n, ¬ needle <+: haystack.drop m := by
  induction haystack generalizing n with
  | nil =>
    unfold strstr
    rcases Decidable.em (needle = []) with rfl | hne
    · exact zero_eq_iff List.nil_prefix
    · simp [hne]
  | cons d rest ih =>
    unfold strstr
    split_ifs with hfront
    · exact zero_eq_iff (List.isPrefixOf_iff_prefix.1 hfront)
    · rw [List.isPrefixOf_iff_prefix] at hfront
      cases n with
      | zero => simp [hfront]
      | succ n =>
        simp only [Option.map_eq_some_iff, Nat.add_right_cancel_iff, exists_eq_right, ih,
          List.drop_succ_cons]
        refine and_congr_right fun _ ↦ ⟨fun h m hm ↦ ?_, fun h m hm ↦ h (m + 1) (by omega)⟩
        cases m with
        | zero => exact hfront
        | succ m => exact h m (by omega)

/-- There is no result when the needle is nowhere. -/
theorem strstr_eq_none_iff {haystack needle : List Char} :
    strstr haystack needle = none ↔ ∀ n, ¬ needle <+: haystack.drop n := by
  constructor
  · intro h n hn
    have hleast := Nat.find_spec (⟨n, hn⟩ : ∃ n, needle <+: haystack.drop n)
    have hsome := strstr_eq_some_iff.2 ⟨hleast, fun m hm ↦ Nat.find_min _ hm⟩
    rw [h] at hsome
    exact Option.some_ne_none _ hsome.symm
  · intro h
    refine Option.eq_none_iff_forall_ne_some.2 fun n hn ↦ ?_
    exact h n (strstr_eq_some_iff.1 hn).1

/-- `strstr` finds the needle if and only if it is somewhere in the haystack. -/
theorem strstr_isSome_iff {haystack needle : List Char} :
    (strstr haystack needle).isSome ↔ needle <:+: haystack := by
  rw [← Option.ne_none_iff_isSome, ne_eq, strstr_eq_none_iff, not_forall_not,
    List.infix_iff_prefix_suffix]
  constructor
  · rintro ⟨n, hn⟩
    exact ⟨_, hn, List.drop_suffix n haystack⟩
  · rintro ⟨t, hprefix, hsuffix⟩
    exact ⟨_, (List.suffix_iff_eq_drop.1 hsuffix) ▸ hprefix⟩

/-- One character is found where it occurs. -/
theorem strstr_singleton_isSome {haystack : List Char} {c : Char} :
    (strstr haystack [c]).isSome ↔ c ∈ haystack := by
  induction haystack with
  | nil => simp [strstr]
  | cons d rest ih =>
    unfold strstr
    rcases eq_or_ne c d with rfl | hne
    · simp
    · simp [hne, ih]

/-- One character is found where it occurs first. -/
theorem strstr_singleton {before after : List Char} {c : Char} (h : c ∉ before) :
    strstr (before ++ c :: after) [c] = some before.length := by
  induction before with
  | nil => simp [strstr]
  | cons d before ih =>
    obtain ⟨hne, hbefore⟩ := not_or.1 (mt List.mem_cons.2 h)
    rw [List.cons_append, strstr, if_neg (by simpa using hne)]
    simp only [ih hbefore, Option.map_some, List.length_cons]

end CStrings
