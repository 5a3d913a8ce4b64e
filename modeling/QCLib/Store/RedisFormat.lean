import Mathlib.Data.List.TakeWhile
import Mathlib.Tactic

/-!
# Redis commands

`redisvFormatCommand` of hiredis splits a format string into the arguments of a command: at blanks,
and with conversions at each `%` that another character follows. Only strings are ever passed for
the conversions here, so a conversion that reads anything else, or more than was passed, has no
defined result.

A list of words that are joined with blanks comes out again as it was exactly when the words are not
empty and have no blanks in them, and no `%` stands anywhere but at the very end
(`format_words_iff`).

`Comes` says how a list of arguments came out of a format, without saying which: every character of
the arguments is one of the format, spaces and doubled percent signs are what gets lost, and no
argument is empty. From this the "only if" follows by counting: if the words come out as they were,
nothing was lost, so there was nothing to lose. The "if" is an induction over the words.
-/

namespace QCLib

namespace Hiredis

/-- One optional flag of a conversion. -/
def skipFlag (p : List Char) (flag : Char) : List Char :=
  match p with
  | c :: p' => if c = flag then p' else p
  | [] => []

/-- `intfmts`. -/
def intfmts : List Char := ['d', 'i', 'o', 'u', 'x', 'X']

/-- What follows a `%` is a conversion that reads a number. `strchr` also finds the end of the
string. -/
def readsNumber (p : List Char) : Bool :=
  let p := ['#', '0', '-', ' ', '+'].foldl skipFlag p
  let p := p.dropWhile Char.isDigit
  let p := match p with
    | '.' :: p => p.dropWhile Char.isDigit
    | p => p
  match p with
  | [] => true
  | 'h' :: 'h' :: p => p.head?.any intfmts.contains
  | 'h' :: p => p.head?.any intfmts.contains
  | 'l' :: 'l' :: p => p.head?.any intfmts.contains
  | 'l' :: p => p.head?.any intfmts.contains
  | c :: _ => intfmts.contains c || ['e', 'E', 'f', 'F', 'g', 'G', 'a', 'A'].contains c

/-- The loop of `redisvFormatCommand` over the rest of the format. It is `none` where it would read
an argument that was not passed, and `some none` where it gives up. -/
def formatLoop : List Char → List String → List Char → Bool → List (List Char) →
    Option (Option (List (List Char)))
  | [], _, curarg, touched, argv => some (some (if touched then argv ++ [curarg] else argv))
  | '%' :: f :: c, args, curarg, _, argv =>
    if f = 's' then
      match args with
      | arg :: args => formatLoop c args (curarg ++ arg.toList) true argv
      | [] => none
    else if f = 'b' then none
    else if f = '%' then formatLoop c args (curarg ++ ['%']) true argv
    else if readsNumber (f :: c) then none
    else some none
  | ' ' :: c, args, curarg, touched, argv =>
    if touched then formatLoop c args [] false (argv ++ [curarg])
    else formatLoop c args curarg false argv
  | ch :: c, args, curarg, _, argv => formatLoop c args (curarg ++ [ch]) true argv

/-- `redisvFormatCommand`, up to the protocol in which it spells the arguments. The format is a C
string. -/
def redisvFormatCommand (format : String) (args : List String) : Option (Option (List String)) :=
  (formatLoop (format.toList.takeWhile (· ≠ '\x00')) args [] false []).map
    (Option.map (List.map String.ofList))

/-! ### One word after the other -/

variable {p rest curarg c : List Char} {args : List String} {touched : Bool}
  {argv out ps : List (List Char)}

/-- One character that is neither a space nor a conversion goes to the current argument. -/
theorem formatLoop_plain {ch : Char} (hspace : ch ≠ ' ') (hpercent : ch ≠ '%' ∨ c = []) :
    formatLoop (ch :: c) args curarg touched argv =
      formatLoop c args (curarg ++ [ch]) true argv := by
  rw [formatLoop]
  · rintro f c' rfl rfl
    rcases hpercent with h | h
    · exact h rfl
    · exact List.cons_ne_nil _ _ h
  · exact hspace

/-- A piece without spaces and percent signs goes to the current argument as a whole. -/
theorem formatLoop_plains (h : ∀ ch ∈ p, ch ≠ ' ' ∧ ch ≠ '%') (hne : p ≠ []) :
    formatLoop (p ++ rest) args curarg touched argv =
      formatLoop rest args (curarg ++ p) true argv := by
  induction p generalizing curarg touched with
  | nil => exact absurd rfl hne
  | cons ch p ih =>
    obtain ⟨hch, hp⟩ := List.forall_mem_cons.1 h
    rw [List.cons_append, formatLoop_plain hch.1 (Or.inl hch.2)]
    rcases Decidable.em (p = []) with rfl | hpne
    · rfl
    · rw [ih hp hpne, List.append_assoc]
      rfl

/-- The last word may end in a `%`, which is kept because no character follows it. -/
theorem formatLoop_last (hspace : ' ' ∉ p) (hpercent : '%' ∉ p.dropLast) (hne : p ≠ []) :
    formatLoop p args curarg touched argv = some (some (argv ++ [curarg ++ p])) := by
  obtain ⟨init, last, rfl⟩ := (List.eq_nil_or_concat' p).resolve_left hne
  rw [List.dropLast_concat] at hpercent
  rw [List.mem_append, not_or, List.mem_singleton] at hspace
  have hlast : ∀ curarg touched, formatLoop [last] args curarg touched argv =
      some (some (argv ++ [curarg ++ [last]])) := by
    intro curarg touched
    rw [formatLoop_plain (Ne.symm hspace.2) (Or.inr rfl)]
    rfl
  rcases Decidable.em (init = []) with rfl | hinit
  · exact hlast ..
  · have hplain : ∀ ch ∈ init, ch ≠ ' ' ∧ ch ≠ '%' := by
      refine fun ch hch ↦ ⟨?_, ?_⟩
      · rintro rfl
        exact hspace.1 hch
      · rintro rfl
        exact hpercent hch
    rw [formatLoop_plains hplain hinit, hlast, List.append_assoc]

/-- A word that an argument can be. -/
def Word (p : List Char) : Prop := p ≠ [] ∧ ' ' ∉ p

/-- Words that are joined with blanks come out again. -/
theorem formatLoop_words (hwords : ∀ p ∈ ps, Word p) (hne : ps ≠ [])
    (hpercent : '%' ∉ ([' '].intercalate ps).dropLast) :
    formatLoop ([' '].intercalate ps) args [] false argv = some (some (argv ++ ps)) := by
  induction ps generalizing argv with
  | nil => exact absurd rfl hne
  | cons p ps ih =>
    obtain ⟨⟨hp, hspace⟩, hwords⟩ := List.forall_mem_cons.1 hwords
    rcases Decidable.em (ps = []) with rfl | hps
    · rw [List.intercalate_singleton] at hpercent ⊢
      rw [formatLoop_last hspace hpercent hp]
      rfl
    · rw [List.intercalate_cons_of_ne_nil hps, List.append_assoc] at hpercent ⊢
      -- Behind a word and a blank there is at least one more character.
      have hrest : [' '].intercalate ps ≠ [] := by
        obtain ⟨q, qs, rfl⟩ := List.exists_cons_of_ne_nil hps
        obtain ⟨ch, q', rfl⟩ := List.exists_cons_of_ne_nil (hwords q List.mem_cons_self).1
        rcases Decidable.em (qs = []) with rfl | hqs
        · simp
        · rw [List.intercalate_cons_of_ne_nil hqs]
          simp
      rw [List.dropLast_append_of_ne_nil (by simp), List.singleton_append,
        List.dropLast_cons_of_ne_nil hrest, List.mem_append, List.mem_cons, not_or,
        not_or] at hpercent
      have hplain : ∀ ch ∈ p, ch ≠ ' ' ∧ ch ≠ '%' := by
        refine fun ch hch ↦ ⟨?_, ?_⟩
        · rintro rfl
          exact hspace hch
        · rintro rfl
          exact hpercent.1 hch
      rw [formatLoop_plains hplain hp]
      show formatLoop ([' '].intercalate ps) args [] false (argv ++ [p]) = _
      rw [ih hwords hps hpercent.2.2, List.append_assoc]
      rfl

/-! ### Nothing else comes out -/

/-- The characters of a format that are not blanks. -/
def inked (c : List Char) : ℕ := c.countP (· ≠ ' ')

/-- What is known of the arguments that come out when none was passed: their characters are those of
the format, none of them is empty, and `lost` of the characters that are not blanks are missing. -/
private structure Comes (c curarg : List Char) (touched : Bool) (argv out : List (List Char))
    (lost : ℕ) : Prop where
  mem : ∀ ch ∈ out.flatten, ch ∈ argv.flatten ∨ ch ∈ curarg ∨ ch ∈ c
  ne_nil : (∀ a ∈ argv, a ≠ []) → (touched = true → curarg ≠ []) → ∀ a ∈ out, a ≠ []
  length : out.flatten.length + lost ≤ argv.flatten.length + curarg.length + inked c
  percent : lost = 0 → '%' ∉ c.dropLast

private theorem comes_nil : Comes [] curarg touched argv
    (if touched then argv ++ [curarg] else argv) 0 := by
  cases touched with
  | true =>
    refine ⟨fun ch hch ↦ ?_, fun hargv hcur a ha ↦ ?_, ?_, fun _ ↦ List.not_mem_nil⟩
    · rw [if_pos rfl, List.flatten_append, List.flatten_singleton, List.mem_append] at hch
      exact hch.imp_right Or.inl
    · rw [if_pos rfl, List.mem_append, List.mem_singleton] at ha
      rcases ha with ha | rfl
      · exact hargv a ha
      · exact hcur rfl
    · rw [if_pos rfl, List.flatten_append, List.flatten_singleton, List.length_append]
      omega
  | false =>
    refine ⟨fun ch hch ↦ Or.inl hch, fun hargv _ ↦ hargv, ?_, fun _ ↦ List.not_mem_nil⟩
    rw [if_neg Bool.false_ne_true]
    omega

variable {lost : ℕ}

private theorem Comes.plain {ch : Char} (h : Comes c (curarg ++ [ch]) true argv out lost)
    (hspace : ch ≠ ' ') (hpercent : ch ≠ '%' ∨ c = []) :
    Comes (ch :: c) curarg touched argv out lost := by
  refine ⟨fun d hd ↦ ?_, fun hargv _ ↦ h.ne_nil hargv fun _ ↦ by simp, ?_, fun hlost ↦ ?_⟩
  · have := h.mem d hd
    rw [List.mem_append, List.mem_singleton] at this
    rw [List.mem_cons]
    tauto
  · have := h.length
    rw [List.length_append, List.length_singleton] at this
    rw [inked, List.countP_cons_of_pos (by simpa using hspace), ← inked]
    omega
  · rcases Decidable.em (c = []) with rfl | hne
    · exact List.not_mem_nil
    · rw [List.dropLast_cons_of_ne_nil hne, List.mem_cons, not_or]
      exact ⟨(hpercent.resolve_right hne).symm, h.percent hlost⟩

private theorem Comes.percents (h : Comes c (curarg ++ ['%']) true argv out lost) :
    Comes ('%' :: '%' :: c) curarg touched argv out (lost + 1) := by
  refine ⟨fun d hd ↦ ?_, fun hargv _ ↦ h.ne_nil hargv fun _ ↦ by simp, ?_, by simp⟩
  · have := h.mem d hd
    rw [List.mem_append, List.mem_singleton] at this
    rw [List.mem_cons]
    tauto
  · have := h.length
    rw [List.length_append, List.length_singleton] at this
    rw [inked, List.countP_cons_of_pos rfl, List.countP_cons_of_pos rfl, ← inked]
    omega

private theorem Comes.blank {touched' : Bool} {curarg' : List Char} {argv' : List (List Char)}
    (h : Comes c curarg' touched' argv' out lost)
    (hflat : argv'.flatten ++ curarg' = argv.flatten ++ curarg)
    (hne : (∀ a ∈ argv, a ≠ []) → (touched = true → curarg ≠ []) →
      (∀ a ∈ argv', a ≠ []) ∧ (touched' = true → curarg' ≠ [])) :
    Comes (' ' :: c) curarg touched argv out lost := by
  have hlen := congrArg List.length hflat
  rw [List.length_append, List.length_append] at hlen
  refine ⟨fun d hd ↦ ?_, fun hargv hcur ↦ ?_, ?_, fun hlost ↦ ?_⟩
  · have hmem : d ∈ argv'.flatten ++ curarg' ∨ d ∈ c := by
      rw [List.mem_append, or_assoc]
      exact h.mem d hd
    rw [hflat, List.mem_append, or_assoc] at hmem
    exact hmem.imp_right (Or.imp_right (List.mem_cons_of_mem _))
  · obtain ⟨hargv', hcur'⟩ := hne hargv hcur
    exact h.ne_nil hargv' hcur'
  · have := h.length
    rw [inked, List.countP_cons_of_neg (by simp), ← inked]
    omega
  · rcases Decidable.em (c = []) with rfl | hc
    · exact List.not_mem_nil
    · rw [List.dropLast_cons_of_ne_nil hc, List.mem_cons, not_or]
      exact ⟨by decide, h.percent hlost⟩

private theorem exists_comes (h : formatLoop c args curarg touched argv = some (some out))
    (hargs : args = []) : ∃ lost, Comes c curarg touched argv out lost := by
  fun_induction formatLoop c args curarg touched argv with
  | case1 args curarg touched argv =>
    obtain rfl := Option.some.inj (Option.some.inj h)
    exact ⟨0, comes_nil⟩
  | case2 => exact absurd hargs (List.cons_ne_nil _ _)
  | case3 | case4 | case6 => exact absurd h.symm (Option.some_ne_none _)
  | case7 => exact absurd (Option.some.inj h).symm (Option.some_ne_none _)
  | case5 c args curarg touched argv _ _ ih =>
    obtain ⟨lost, hcomes⟩ := ih h hargs
    exact ⟨lost + 1, hcomes.percents⟩
  | case8 c args curarg argv ih =>
    obtain ⟨lost, hcomes⟩ := ih h hargs
    refine ⟨lost, hcomes.blank (by simp) fun hargv hcur ↦ ⟨fun a ha ↦ ?_, by simp⟩⟩
    rcases List.mem_append.1 ha with ha | ha
    · exact hargv a ha
    · rw [List.mem_singleton.1 ha]
      exact hcur rfl
  | case9 c args curarg touched argv htouched ih =>
    obtain ⟨lost, hcomes⟩ := ih h hargs
    exact ⟨lost, hcomes.blank rfl fun hargv _ ↦ ⟨hargv, by simp⟩⟩
  | case10 ch c args curarg touched argv hpercent hspace ih =>
    obtain ⟨lost, hcomes⟩ := ih h hargs
    refine ⟨lost, hcomes.plain hspace ?_⟩
    by_contra hcon
    obtain ⟨hch, hc⟩ := not_or.1 hcon
    obtain ⟨f, c', rfl⟩ := List.exists_cons_of_ne_nil hc
    exact hpercent f c' (Decidable.not_not.1 hch) rfl

/-- Characters that are no spaces are counted piece by piece. -/
theorem inked_append (c c' : List Char) : inked (c ++ c') = inked c + inked c' := List.countP_append

theorem inked_intercalate (ps : List (List Char)) :
    inked ([' '].intercalate ps) = inked ps.flatten := by
  induction ps with
  | nil => rfl
  | cons p ps ih =>
    rcases Decidable.em (ps = []) with rfl | hps
    · rw [List.intercalate_singleton, List.flatten_singleton]
    · rw [List.intercalate_cons_of_ne_nil hps, inked_append, inked_append, List.flatten_cons,
        inked_append, ih]
      rfl

/-- A character between pieces is a space, or is in one of them. -/
theorem mem_intercalate {ch : Char} (h : ch ∈ [' '].intercalate ps) :
    ch = ' ' ∨ ch ∈ ps.flatten := by
  induction ps with
  | nil => exact absurd h List.not_mem_nil
  | cons p ps ih =>
    rcases Decidable.em (ps = []) with rfl | hps
    · rw [List.intercalate_singleton] at h
      exact Or.inr (by simpa using h)
    · rw [List.intercalate_cons_of_ne_nil hps, List.mem_append, List.mem_append,
        List.mem_singleton] at h
      rw [List.flatten_cons, List.mem_append]
      tauto

/-- **Words.** Words that are joined with blanks come out as they were exactly when each is a word
and no `%` stands before the end. -/
theorem formatLoop_words_iff (hne : ps ≠ []) :
    formatLoop ([' '].intercalate ps) [] [] false [] = some (some ps) ↔
      (∀ p ∈ ps, Word p) ∧ '%' ∉ ([' '].intercalate ps).dropLast := by
  refine ⟨fun h ↦ ?_, fun h ↦ formatLoop_words h.1 hne h.2⟩
  obtain ⟨lost, hcomes⟩ := exists_comes h rfl
  have hlen := hcomes.length
  have hle : inked ps.flatten ≤ ps.flatten.length := List.countP_le_length
  rw [inked_intercalate, List.flatten_nil, List.length_nil] at hlen
  have hink : ∀ ch ∈ ps.flatten, decide (ch ≠ ' ') = true := by
    rw [← List.countP_eq_length]
    show inked ps.flatten = _
    omega
  refine ⟨fun p hp ↦ ⟨?_, fun hspace ↦ ?_⟩, hcomes.percent (by omega)⟩
  · exact hcomes.ne_nil (by simp) (by simp) p hp
  · exact absurd (hink ' ' (List.mem_flatten.2 ⟨p, hp, hspace⟩)) (by decide)

/-- A string that arrives as one argument when it is part of a format. -/
def WordString (w : String) : Prop := w ≠ "" ∧ ∀ ch ∈ w.toList, ch ≠ ' ' ∧ ch ≠ '\x00'

-- The list is searched: `Char` is a finite type, too.
instance (w : String) : Decidable (WordString w) :=
  @instDecidableAnd _ _ inferInstance (List.decidableBAll _ _)

/-- A word as a string is a word as a list of characters. -/
theorem WordString.word {w : String} (h : WordString w) : Word w.toList :=
  ⟨by rw [Ne, String.toList_eq_nil_iff]; exact h.1, fun hspace ↦ (h.2 ' ' hspace).1 rfl⟩

/-- **A command that is made of strings** is sent with exactly these strings as its arguments if and
only if each is a word and no `%` stands before the end of the format. -/
theorem redisvFormatCommand_iff {format : String} {words : List String} (hne : words ≠ [])
    (hformat : format.toList = [' '].intercalate (words.map String.toList)) :
    redisvFormatCommand format [] = some (some words) ↔
      (∀ w ∈ words, WordString w) ∧ '%' ∉ format.toList.dropLast := by
  have hne' : words.map String.toList ≠ [] := by simpa using hne
  have hofList : ∀ out : List (List Char), out.map String.ofList = words ↔
      out = words.map String.toList := by
    intro out
    constructor
    · rintro rfl
      have hid : String.toList ∘ String.ofList = id := funext fun _ ↦ String.toList_ofList
      rw [List.map_map, hid, List.map_id]
    · rintro rfl
      have hid : String.ofList ∘ String.toList = id := funext fun _ ↦ String.ofList_toList
      rw [List.map_map, hid, List.map_id]
  have hiff : redisvFormatCommand format [] = some (some words) ↔
      formatLoop (format.toList.takeWhile (· ≠ '\x00')) [] [] false [] =
        some (some (words.map String.toList)) := by
    rw [redisvFormatCommand, Option.map_eq_some_iff]
    constructor
    · rintro ⟨a, ha, hmap⟩
      obtain ⟨out, rfl, hout⟩ := Option.map_eq_some_iff.1 hmap
      rw [ha, (hofList out).1 hout]
    · intro h
      exact ⟨_, h, congrArg some ((hofList _).2 rfl)⟩
  -- Without a terminator in it, the format is all read.
  have hall : (∀ w ∈ words, ∀ ch ∈ w.toList, ch ≠ '\x00') →
      format.toList.takeWhile (· ≠ '\x00') = format.toList := by
    intro h
    rw [List.takeWhile_eq_self_iff, hformat]
    intro ch hch
    rcases mem_intercalate hch with rfl | hch
    · rfl
    · obtain ⟨p, hp, hch⟩ := List.mem_flatten.1 hch
      obtain ⟨w, hw, rfl⟩ := List.mem_map.1 hp
      exact decide_eq_true (h w hw ch hch)
  rw [hiff]
  constructor
  · intro h
    obtain ⟨lost, hcomes⟩ := exists_comes h rfl
    have hnul : ∀ w ∈ words, ∀ ch ∈ w.toList, ch ≠ '\x00' := by
      intro w hw ch hch
      have hmem := hcomes.mem ch (List.mem_flatten.2 ⟨_, List.mem_map_of_mem hw, hch⟩)
      simp only [List.flatten_nil, List.not_mem_nil, false_or] at hmem
      have htaken := List.mem_takeWhile_imp hmem
      exact of_decide_eq_true htaken
    rw [hall hnul, hformat, formatLoop_words_iff hne'] at h
    rw [hformat]
    refine ⟨fun w hw ↦ ?_, h.2⟩
    obtain ⟨hw₁, hw₂⟩ := h.1 _ (List.mem_map_of_mem hw)
    refine ⟨fun heq ↦ hw₁ (String.toList_eq_nil_iff.2 heq), fun ch hch ↦ ⟨?_, hnul w hw ch hch⟩⟩
    rintro rfl
    exact hw₂ hch
  · rintro ⟨hwords, hpercent⟩
    rw [hall fun w hw ch hch ↦ ((hwords w hw).2 ch hch).2, hformat, formatLoop_words_iff hne']
    refine ⟨fun p hp ↦ ?_, hformat ▸ hpercent⟩
    obtain ⟨w, hw, rfl⟩ := List.mem_map.1 hp
    exact (hwords w hw).word

end Hiredis

end QCLib
