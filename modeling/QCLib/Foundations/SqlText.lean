import Mathlib.Data.List.Basic
import Mathlib.Tactic.SplitIfs

/-!
# The text of SQL statements

How a MySQL server reads the text of a statement, for the few kinds of statement that a simple
client needs. The text falls into words, single characters and literals between single quotes, in
which a doubled quote is a quote and a backslash escapes what follows; a statement is read off these
tokens. Whatever is not one of the statements here is not read at all, and a name is a word that is
not reserved.

In front of the wildcards `%` and `_` a backslash stays, since it is for a pattern to make something
of it, and no pattern is read here. So these are the texts that can stand between quotes as they are
(`IsKept`): no quotes, and no backslash but in front of a wildcard.

A text is lexed piece by piece (`lex_space`, `lex_symbol`, `lex_word`, `lex_literal`), and a
statement is read back from any text with its tokens (`read_of_lex`).

The two directions are kept apart. That a text built from its tokens is read as the statement is an
induction over the text (`read_of_lex`, from the pieces); that no other text is read as that
statement is an induction over the tokens (`eq_of_parse`). Together they give `read_eq_some_iff`,
and a program's statement is read as it was meant if and only if its text has the tokens of the
statement.

The lexer is a machine with five modes, blank, in a word, in a literal, behind a quote and behind a
backslash, and is structurally recursive in the text, so small texts can be evaluated.
-/

namespace Sql

/-! ### Tokens -/

inductive Token where
  | word (text : String)
  | literal (text : String)
  | symbol (c : Char)
  deriving DecidableEq, Repr

def isSpace (c : Char) : Bool := c = ' ' ∨ c = '\t' ∨ c = '\n' ∨ c = '\r'

/-- The characters of a name that needs no quotes. -/
def isWordChar (c : Char) : Bool := c.isAlphanum ∨ c = '_' ∨ c = '$'

/-- The characters that stand for others in a pattern. -/
def IsWildcard (c : Char) : Prop := c = '%' ∨ c = '_'

instance (c : Char) : Decidable (IsWildcard c) := inferInstanceAs (Decidable (_ ∨ _))

/-- What a backslash and the character after it stand for. -/
def unescape (c : Char) : List Char :=
  if c = 'n' then ['\n'] else if c = 't' then ['\t'] else if c = 'r' then ['\r']
  else if c = '0' then ['\x00'] else if c = 'b' then ['\x08'] else if c = 'Z' then ['\x1a']
  else if IsWildcard c then ['\\', c] else [c]

/-- Where in the text the lexer is, and the characters of the token it is in. -/
inductive Mode where
  | blank
  | word (cs : List Char)
  | literal (cs : List Char)
  /-- After a quote in a literal, which ends it unless another one follows. -/
  | quote (cs : List Char)
  | escape (cs : List Char)

/-- A character that belongs to no token before it. -/
def Mode.start (c : Char) : List Token × Mode :=
  if isSpace c then ([], .blank)
  else if c = '\'' then ([], .literal [])
  else if isWordChar c then ([], .word [c])
  else ([.symbol c], .blank)

/-- The tokens of a text; `none` when a literal is not closed. -/
def lex : Mode → List Char → Option (List Token)
  | .blank, [] => some []
  | .word cs, [] => some [.word (String.ofList cs)]
  | .quote cs, [] => some [.literal (String.ofList cs)]
  | .literal _, [] => none
  | .escape _, [] => none
  | .blank, c :: rest => (lex (Mode.start c).2 rest).map ((Mode.start c).1 ++ ·)
  | .word cs, c :: rest =>
    if isWordChar c then lex (.word (cs ++ [c])) rest
    else (lex (Mode.start c).2 rest).map (.word (String.ofList cs) :: (Mode.start c).1 ++ ·)
  | .literal cs, c :: rest =>
    if c = '\'' then lex (.quote cs) rest
    else if c = '\\' then lex (.escape cs) rest
    else lex (.literal (cs ++ [c])) rest
  | .quote cs, c :: rest =>
    if c = '\'' then lex (.literal (cs ++ [c])) rest
    else (lex (Mode.start c).2 rest).map (.literal (String.ofList cs) :: (Mode.start c).1 ++ ·)
  | .escape cs, c :: rest => lex (.literal (cs ++ unescape c)) rest

/-! ### Statements -/

inductive Statement where
  /-- `select * from table;` -/
  | selectAll (table : String)
  /-- `select count(*) from table where key = 'value';` -/
  | selectCount (table key value : String)
  /-- `update table set name = 'value', … where key = 'value';` -/
  | update (table : String) (assignments : List (String × String)) (key value : String)
  /-- `insert into table (name, …) values ('value', …);` -/
  | insert (table : String) (names values : List String)
  deriving DecidableEq, Repr

/-- Assignments, with commas between them. -/
def parseAssignments : List Token → Option (List (String × String) × List Token)
  | .word name :: .symbol '=' :: .literal value :: .symbol ',' :: rest =>
    (parseAssignments rest).map fun p ↦ ((name, value) :: p.1, p.2)
  | .word name :: .symbol '=' :: .literal value :: rest => some ([(name, value)], rest)
  | _ => none

/-- Names up to a closing parenthesis. -/
def parseNames : List Token → Option (List String × List Token)
  | .word name :: .symbol ',' :: rest => (parseNames rest).map fun p ↦ (name :: p.1, p.2)
  | .word name :: .symbol ')' :: rest => some ([name], rest)
  | _ => none

/-- Values up to a closing parenthesis. -/
def parseValues : List Token → Option (List String × List Token)
  | .literal value :: .symbol ',' :: rest => (parseValues rest).map fun p ↦ (value :: p.1, p.2)
  | .literal value :: .symbol ')' :: rest => some ([value], rest)
  | _ => none

/-- The condition at the end of a statement. -/
def parseWhere : List Token → Option (String × String)
  | [.word "where", .word key, .symbol '=', .literal value, .symbol ';'] => some (key, value)
  | _ => none

/-- The statement that some tokens make. -/
def parse : List Token → Option Statement
  | [.word "select", .symbol '*', .word "from", .word table, .symbol ';'] => some (.selectAll table)
  | .word "select" :: .word "count" :: .symbol '(' :: .symbol '*' :: .symbol ')' :: .word "from" ::
      .word table :: rest =>
    (parseWhere rest).map fun (key, value) ↦ .selectCount table key value
  | .word "update" :: .word table :: .word "set" :: rest =>
    (parseAssignments rest).bind fun (assignments, rest) ↦
      (parseWhere rest).map fun (key, value) ↦ .update table assignments key value
  | .word "insert" :: .word "into" :: .word table :: .symbol '(' :: rest =>
    match parseNames rest with
    | some (names, .word "values" :: .symbol '(' :: rest) =>
      match parseValues rest with
      | some (values, [.symbol ';']) => some (.insert table names values)
      | _ => none
    | _ => none
  | _ => none

/-- The names that a statement uses. -/
def Statement.names : Statement → List String
  | .selectAll table => [table]
  | .selectCount table key _ => [table, key]
  | .update table assignments key _ => table :: key :: assignments.map Prod.fst
  | .insert table names _ => table :: names

/-- The statement in a text, for a server with some reserved words. -/
def read (reserved : String → Bool) (text : String) : Option Statement :=
  ((lex .blank text.toList).bind parse).filter fun statement ↦
    statement.names.all fun name ↦ !reserved name

variable {c : Char} {rest : List Char} {cs ds : List Char} {w v : String}

/-! ### Tokens, one after another -/

/-- A text that is one word. -/
def IsWord (w : String) : Prop := w.toList ≠ [] ∧ ∀ c ∈ w.toList, isWordChar c

/-- A text without anything special. -/
def IsPlain (v : String) : Prop := ∀ c ∈ v.toList, c ≠ '\'' ∧ c ≠ '\\'

/-- The characters can stand between quotes as they are. -/
def Kept : List Char → Prop
  | [] => True
  | c :: rest => c ≠ '\'' ∧ (c = '\\' → ∃ d ∈ rest.head?, IsWildcard d) ∧ Kept rest

instance decidableKept : ∀ cs, Decidable (Kept cs)
  | [] => isTrue trivial
  | c :: rest =>
    have := decidableKept rest
    inferInstanceAs (Decidable (c ≠ '\'' ∧ (c = '\\' → ∃ d ∈ rest.head?, IsWildcard d) ∧ _))

/-- A text that can stand between quotes as it is. -/
def IsKept (v : String) : Prop := Kept v.toList

instance (v : String) : Decidable (IsKept v) := decidableKept v.toList

instance (w : String) : Decidable (IsWord w) :=
  @instDecidableAnd _ _ inferInstance (List.decidableBAll (fun c ↦ isWordChar c) w.toList)

instance (v : String) : Decidable (IsPlain v) :=
  List.decidableBAll (fun c ↦ c ≠ '\'' ∧ c ≠ '\\') v.toList

/-- A name that can be written as it is. -/
def IsName (reserved : String → Bool) (name : String) : Prop :=
  IsWord name ∧ reserved name = false

instance (reserved : String → Bool) (name : String) : Decidable (IsName reserved name) :=
  inferInstanceAs (Decidable (_ ∧ _))

/-- Between tokens, the next character begins one or is passed over. -/
theorem lex_blank_cons (c : Char) (rest : List Char) :
    lex .blank (c :: rest) = (lex (Mode.start c).2 rest).map ((Mode.start c).1 ++ ·) := rfl

/-- A word goes on, or ends and leaves the character to what comes next. -/
theorem lex_word_cons (cs : List Char) (c : Char) (rest : List Char) :
    lex (.word cs) (c :: rest) =
      if isWordChar c then lex (.word (cs ++ [c])) rest
      else (lex (Mode.start c).2 rest).map
        (.word (String.ofList cs) :: (Mode.start c).1 ++ ·) := rfl

/-- A literal goes on up to a quote; a backslash is looked at with the character behind it. -/
theorem lex_literal_cons (cs : List Char) (c : Char) (rest : List Char) :
    lex (.literal cs) (c :: rest) =
      if c = '\'' then lex (.quote cs) rest
      else if c = '\\' then lex (.escape cs) rest
      else lex (.literal (cs ++ [c])) rest := rfl

/-- A quote in a literal ends it, unless a second one follows. -/
theorem lex_quote_cons (cs : List Char) (c : Char) (rest : List Char) :
    lex (.quote cs) (c :: rest) =
      if c = '\'' then lex (.literal (cs ++ [c])) rest
      else (lex (Mode.start c).2 rest).map
        (.literal (String.ofList cs) :: (Mode.start c).1 ++ ·) := rfl

/-- Behind a backslash, one character is taken for what the two stand for. -/
theorem lex_escape_cons (cs : List Char) (c : Char) (rest : List Char) :
    lex (.escape cs) (c :: rest) = lex (.literal (cs ++ unescape c)) rest := rfl

theorem lex_space (rest : List Char) : lex .blank (' ' :: rest) = lex .blank rest := by
  rw [lex_blank_cons]
  exact Option.map_id'

theorem lex_symbol (hstart : Mode.start c = ([.symbol c], .blank)) (rest : List Char) :
    lex .blank (c :: rest) = (lex .blank rest).map (.symbol c :: ·) := by
  rw [lex_blank_cons, hstart]
  rfl

/-- A word begins with any of its characters. -/
private theorem start_of_isWordChar (h : isWordChar c) : Mode.start c = ([], .word [c]) := by
  have hspace : isSpace c = false := by
    rw [Bool.eq_false_iff]
    intro hs
    simp only [isSpace, decide_eq_true_eq] at hs
    rcases hs with rfl | rfl | rfl | rfl <;> exact absurd h (by decide)
  have hquote : c ≠ '\'' := by
    rintro rfl
    exact absurd h (by decide)
  rw [Mode.start, hspace, if_neg Bool.false_ne_true, if_neg hquote, if_pos h]

/-- A character of a word, or the first one after it. -/
private theorem lex_word_step : lex (.word cs) (c :: rest) =
    if isWordChar c then lex (.word (cs ++ [c])) rest
    else (lex .blank (c :: rest)).map (.word (String.ofList cs) :: ·) := by
  rw [lex_word_cons, lex_blank_cons, Option.map_map]
  rfl

/-- Inside a literal, a character that is neither a quote nor a backslash stands for itself. -/
private theorem lex_literal_step (hc : c ≠ '\'' ∧ c ≠ '\\') :
    lex (.literal cs) (c :: rest) = lex (.literal (cs ++ [c])) rest := by
  rw [lex_literal_cons, if_neg hc.1, if_neg hc.2]

/-- A quote ends the literal, unless another one follows it. -/
private theorem lex_literal_quote (hc : c ≠ '\'') : lex (.literal cs) ('\'' :: c :: rest) =
    (lex .blank (c :: rest)).map (.literal (String.ofList cs) :: ·) := by
  have hquote : lex (.literal cs) ('\'' :: c :: rest) = lex (.quote cs) (c :: rest) := if_pos rfl
  rw [hquote, lex_quote_cons, lex_blank_cons, if_neg hc, Option.map_map]
  rfl

/-- The rest of a word, up to a character that is not in it. -/
private theorem lex_inWord (hds : ∀ d ∈ ds, isWordChar d) (hc : isWordChar c = false) :
    lex (.word cs) (ds ++ c :: rest) =
      (lex .blank (c :: rest)).map (.word (String.ofList (cs ++ ds)) :: ·) := by
  induction ds generalizing cs with
  | nil =>
    rw [List.nil_append, List.append_nil, lex_word_step, hc, if_neg Bool.false_ne_true]
  | cons d ds ih =>
    obtain ⟨hd, hds⟩ := List.forall_mem_cons.1 hds
    rw [List.cons_append, lex_word_step, if_pos hd, ih hds, List.append_assoc,
      List.singleton_append]

/-- **A word** is read up to the next character that is not in it. -/
theorem lex_word (hw : IsWord w) (hc : isWordChar c = false) :
    lex .blank (w.toList ++ c :: rest) = (lex .blank (c :: rest)).map (.word w :: ·) := by
  obtain ⟨hne, hall⟩ := hw
  obtain ⟨d, ds, hds⟩ := List.exists_cons_of_ne_nil hne
  rw [hds] at hall
  obtain ⟨hd, hall⟩ := List.forall_mem_cons.1 hall
  have hstart : Mode.start d = ([], .word [d]) := start_of_isWordChar hd
  rw [hds, List.cons_append, lex_blank_cons, hstart, lex_inWord hall hc, Option.map_map]
  have hw : String.ofList ([d] ++ ds) = w := by
    rw [List.singleton_append, ← hds, String.ofList_toList]
  rw [hw]
  rfl

/-- A text is kept if its first character is and the rest is; a backslash is kept in front of a
wildcard. -/
theorem kept_cons : Kept (c :: rest) ↔
    c ≠ '\'' ∧ (c = '\\' → ∃ d ∈ rest.head?, IsWildcard d) ∧ Kept rest := Iff.rfl

/-- A text without anything special is kept. -/
theorem kept_of_forall (h : ∀ d ∈ ds, d ≠ '\'' ∧ d ≠ '\\') : Kept ds := by
  induction ds with
  | nil => trivial
  | cons d ds ih =>
    obtain ⟨hd, hds⟩ := List.forall_mem_cons.1 h
    exact ⟨hd.1, fun hslash ↦ absurd hslash hd.2, ih hds⟩

theorem IsPlain.isKept (h : IsPlain v) : IsKept v := kept_of_forall h

/-- A backslash in front of a wildcard stays. -/
private theorem lex_wildcard (hc : IsWildcard c) :
    lex (.literal cs) ('\\' :: c :: rest) = lex (.literal (cs ++ ['\\', c])) rest := by
  have hescape : unescape c = ['\\', c] := by rcases hc with rfl | rfl <;> rfl
  rw [← hescape]
  rfl

private theorem not_special_of_isWildcard (hc : IsWildcard c) : c ≠ '\'' ∧ c ≠ '\\' := by
  rcases hc with rfl | rfl <;> decide

/-- The rest of a literal is read up to its quote, by recursion on what is kept. -/
private theorem lex_inLiteral (hc : c ≠ '\'') : ∀ ds cs : List Char, Kept ds →
    lex (.literal cs) (ds ++ '\'' :: c :: rest) =
      (lex .blank (c :: rest)).map (.literal (String.ofList (cs ++ ds)) :: ·)
  | [], cs, _ => by rw [List.nil_append, List.append_nil, lex_literal_quote hc]
  | d :: ds, cs, hds => by
    obtain ⟨hquote, hslash, hrest⟩ := kept_cons.1 hds
    by_cases hd : d = '\\'
    · subst hd
      obtain ⟨e, he, hwild⟩ := hslash rfl
      cases ds with
      | nil => cases he
      | cons e' ds =>
        obtain rfl := Option.some.inj he
        rw [List.cons_append, List.cons_append, lex_wildcard hwild,
          lex_inLiteral hc ds _ (kept_cons.1 hrest).2.2, List.append_assoc]
        rfl
    · rw [List.cons_append, lex_literal_step ⟨hquote, hd⟩, lex_inLiteral hc ds _ hrest,
        List.append_assoc, List.singleton_append]

/-- A quote between tokens begins a literal. -/
private theorem lex_quote (rest : List Char) :
    lex .blank ('\'' :: rest) = lex (.literal []) rest := by
  have hstart : Mode.start '\'' = ([], .literal []) := rfl
  rw [lex_blank_cons, hstart]
  exact Option.map_id'

/-- **A literal is read as it was written**, if its text is one that the escapes leave alone and no
quote follows it. -/
theorem lex_literal (hv : IsKept v) (hc : c ≠ '\'') :
    lex .blank ('\'' :: (v.toList ++ '\'' :: c :: rest)) =
      (lex .blank (c :: rest)).map (.literal v :: ·) := by
  rw [lex_quote, lex_inLiteral hc _ _ hv, List.nil_append, String.ofList_toList]

/-! ### Literals that are read as they are -/

/-- A backslash and the character after it stand for at most two. -/
private theorem length_unescape_le (c : Char) : (unescape c).length ≤ 2 := by
  unfold unescape
  split_ifs <;> simp

/-- The token of a literal is what it has so far, and no more than the text that is left. -/
theorem literal_of_lex (input : List Char) :
    (∀ cs tokens, lex (.literal cs) input = some tokens → ∃ more ts,
        more.length ≤ input.length ∧ tokens = .literal (String.ofList (cs ++ more)) :: ts) ∧
      (∀ cs tokens, lex (.quote cs) input = some tokens → ∃ more ts,
        more.length ≤ input.length ∧ tokens = .literal (String.ofList (cs ++ more)) :: ts) ∧
      (∀ cs tokens, lex (.escape cs) input = some tokens → ∃ more ts,
        more.length ≤ input.length + 1 ∧ tokens = .literal (String.ofList (cs ++ more)) :: ts) := by
  induction input with
  | nil =>
    refine ⟨fun cs tokens h ↦ ?_, fun cs tokens h ↦ ?_, fun cs tokens h ↦ ?_⟩
    · cases h
    · exact ⟨[], [], Nat.le_refl 0, by simpa using Option.some.inj h.symm⟩
    · cases h
  | cons c rest ih =>
    obtain ⟨hliteral, hquote, hescape⟩ := ih
    refine ⟨fun cs tokens h ↦ ?_, fun cs tokens h ↦ ?_, fun cs tokens h ↦ ?_⟩
    · rw [lex_literal_cons] at h
      split_ifs at h
      · obtain ⟨more, ts, hle, htokens⟩ := hquote cs tokens h
        exact ⟨more, ts, Nat.le_succ_of_le hle, htokens⟩
      · obtain ⟨more, ts, hle, htokens⟩ := hescape cs tokens h
        exact ⟨more, ts, hle, htokens⟩
      · obtain ⟨more, ts, hle, htokens⟩ := hliteral _ tokens h
        exact ⟨c :: more, ts, Nat.succ_le_succ hle, by rw [htokens, ← List.append_cons]⟩
    · rw [lex_quote_cons] at h
      split_ifs at h
      · obtain ⟨more, ts, hle, htokens⟩ := hliteral _ tokens h
        exact ⟨c :: more, ts, Nat.succ_le_succ hle, by rw [htokens, ← List.append_cons]⟩
      · obtain ⟨ts, -, rfl⟩ := Option.map_eq_some_iff.1 h
        exact ⟨[], _, Nat.zero_le _, by rw [List.append_nil]; rfl⟩
    · rw [lex_escape_cons] at h
      obtain ⟨more, ts, hle, htokens⟩ := hliteral _ tokens h
      refine ⟨unescape c ++ more, ts, ?_, by rw [htokens, List.append_assoc]⟩
      have hescape := length_unescape_le c
      rw [List.length_append, List.length_cons]
      omega

/-- What a literal goes on with is what its token goes on with. -/
private theorem exists_append_of_lex {tokens : List Token} {new : List Char}
    (h : lex (.literal (cs ++ new)) rest = some (.literal (String.ofList (cs ++ ds)) :: tokens)) :
    ∃ more, ds = new ++ more := by
  obtain ⟨more, ts, -, htokens⟩ := (literal_of_lex rest).1 _ _ h
  obtain ⟨hliteral, -⟩ := List.cons.inj htokens
  have hlist := String.ofList_inj.1 (Token.literal.inj hliteral)
  rw [List.append_assoc] at hlist
  exact ⟨more, List.append_cancel_left hlist⟩

private theorem eq_cons_of_lex {tokens : List Token}
    (h : lex (.literal (cs ++ [c])) rest = some (.literal (String.ofList (cs ++ ds)) :: tokens)) :
    ∃ more, ds = c :: more :=
  exists_append_of_lex h

/-- A literal that has ended has no more characters. -/
private theorem eq_nil_of_lex_quote {tokens : List Token} (hc : c ≠ '\'')
    (h : lex (.quote cs) (c :: rest) = some (.literal (String.ofList (cs ++ ds)) :: tokens)) :
    ds = [] := by
  rw [lex_quote_cons, if_neg hc] at h
  obtain ⟨ts, -, hts⟩ := Option.map_eq_some_iff.1 h
  obtain ⟨hliteral, -⟩ := List.cons.inj hts
  have hlist := String.ofList_inj.1 (Token.literal.inj hliteral)
  exact List.append_right_eq_self.1 hlist.symm

/-- The other characters are special. -/
private def IsSpecial (c : Char) : Prop := c = '\'' ∨ c = '\\'

private theorem not_isSpecial : ¬ IsSpecial c ↔ c ≠ '\'' ∧ c ≠ '\\' := not_or

/-- A backslash in front of anything but a wildcard goes: one character is left, and if it is
special, it is the one after the backslash. -/
private theorem exists_unescape (hc : ¬ IsWildcard c) :
    ∃ d, unescape c = [d] ∧ (IsSpecial d → d = c) := by
  unfold unescape
  split_ifs with h₁ h₂ h₃ h₄ h₅ h₆
  all_goals first
    | exact ⟨_, rfl, fun _ ↦ rfl⟩
    | exact ⟨_, rfl, fun hspecial ↦ absurd hspecial (by unfold IsSpecial; decide)⟩

/-- A plain character is the next one of the token, so no special one is awaited before it. -/
private theorem pending_eq_nil {pending more : List Char} (hpending : ∀ d ∈ pending, IsSpecial d)
    (hc : ¬ IsSpecial c) (h : pending ++ ds = c :: more) : pending = [] := by
  cases pending with
  | nil => rfl
  | cons d pending =>
    obtain rfl := (List.cons.inj h).1
    exact absurd (hpending d List.mem_cons_self) hc

/-- One of three special characters is read, and the others are awaited. -/
private theorem exists_pending {pending more : List Char} {x y z : Char}
    (hpending : ∀ d ∈ pending, IsSpecial d) (hx : IsSpecial x) (hy : IsSpecial y)
    (h : pending ++ x :: y :: ds = z :: more) :
    ∃ pending', pending' ≠ [] ∧ (∀ d ∈ pending', IsSpecial d) ∧ more = pending' ++ ds := by
  cases pending with
  | nil =>
    refine ⟨[y], List.cons_ne_nil y [], by simpa using hy, ?_⟩
    exact (List.cons.inj h).2.symm
  | cons d pending =>
    obtain ⟨-, hpending⟩ := List.forall_mem_cons.1 hpending
    refine ⟨pending ++ [x, y], by simp, ?_, ?_⟩
    · exact List.forall_mem_append.2 ⟨hpending, by simpa using ⟨hx, hy⟩⟩
    · rw [← (List.cons.inj h).2, List.append_assoc]
      rfl

/-- A special character makes a literal shorter than its text, unless it is a backslash in front of
a wildcard, and what is missing is never made up for. Here some special characters of the text are
awaited, `ds` is left of it, and the quote that should end the literal stands before a plain `c`. -/
private theorem eq_nil_of_lex_literal {tokens : List Token} (hc : ¬ IsSpecial c) :
    ∀ ds pending cs : List Char, (∀ d ∈ pending, IsSpecial d) →
      lex (.literal cs) (ds ++ '\'' :: c :: rest) =
        some (.literal (String.ofList (cs ++ (pending ++ ds))) :: tokens) →
      pending = [] ∧ Kept ds
  | [], pending, cs, _, h => by
    rw [List.nil_append, List.append_nil] at h
    have hend : lex (.quote cs) (c :: rest) =
        some (.literal (String.ofList (cs ++ pending)) :: tokens) := h
    exact ⟨eq_nil_of_lex_quote (not_isSpecial.1 hc).1 hend, trivial⟩
  | [x], pending, cs, hpending, h => by
    obtain ⟨hquote, hslash⟩ := not_isSpecial.1 hc
    by_cases hx : IsSpecial x
    · -- The quote belongs to `x`, and the literal goes on with `c`.
      have hgo : lex (.literal (cs ++ ['\''])) (c :: rest) =
          some (.literal (String.ofList (cs ++ (pending ++ [x]))) :: tokens) := by
        rcases hx with rfl | rfl
        · exact h
        · exact h
      obtain ⟨more, hmore⟩ := eq_cons_of_lex hgo
      rw [hmore, List.append_cons cs '\'' more, lex_literal_step ⟨hquote, hslash⟩] at hgo
      obtain ⟨more, rfl⟩ := eq_cons_of_lex hgo
      have hmem : c ∈ pending ++ [x] := by
        rw [hmore]
        exact List.mem_cons_of_mem _ List.mem_cons_self
      rcases List.mem_append.1 hmem with hmem | hmem
      · exact absurd (hpending c hmem) hc
      · obtain rfl := List.mem_singleton.1 hmem
        exact absurd hx hc
    · have hgo : lex (.literal (cs ++ [x])) ('\'' :: c :: rest) =
          some (.literal (String.ofList (cs ++ (pending ++ [x]))) :: tokens) := by
        rw [← lex_literal_step (not_isSpecial.1 hx)]
        exact h
      obtain ⟨more, hmore⟩ := eq_cons_of_lex hgo
      refine ⟨pending_eq_nil hpending hx hmore, kept_of_forall ?_⟩
      simpa using not_isSpecial.1 hx
  | x :: y :: ds, pending, cs, hpending, h => by
    by_cases hx : IsSpecial x
    · by_cases hwild : x = '\\' ∧ IsWildcard y
      · -- Both characters stay, and so nothing is awaited.
        obtain ⟨rfl, hy⟩ := hwild
        have hplain : ¬ IsSpecial y := not_isSpecial.2 (not_special_of_isWildcard hy)
        have hgo : lex (.literal (cs ++ ['\\', y])) (ds ++ '\'' :: c :: rest) =
            some (.literal (String.ofList (cs ++ (pending ++ '\\' :: y :: ds))) :: tokens) := by
          rw [← lex_wildcard hy]
          exact h
        obtain ⟨more, hmore⟩ := exists_append_of_lex hgo
        obtain rfl : pending = [] := by
          cases pending with
          | nil => rfl
          | cons d pending =>
            obtain ⟨-, hpending⟩ := List.forall_mem_cons.1 hpending
            have htail : pending ++ '\\' :: y :: ds = y :: more := (List.cons.inj hmore).2
            obtain rfl := pending_eq_nil hpending hplain htail
            exact absurd (List.cons.inj htail).1.symm (not_special_of_isWildcard hy).2
        have hrest : lex (.literal (cs ++ ['\\', y])) (ds ++ '\'' :: c :: rest) =
            some (.literal (String.ofList (cs ++ ['\\', y] ++ ([] ++ ds))) :: tokens) := by
          rw [hgo, List.append_assoc]
          rfl
        obtain ⟨-, hds⟩ := eq_nil_of_lex_literal hc ds [] _ (by simp) hrest
        exact ⟨rfl, by decide, fun _ ↦ ⟨y, rfl, hy⟩, (not_isSpecial.1 hplain).1,
          fun hslash ↦ absurd (Or.inr hslash) hplain, hds⟩
      · -- Two characters stand for one, so there are more to come.
        obtain ⟨z, hy, hgo⟩ : ∃ z, IsSpecial y ∧
            lex (.literal (cs ++ [z])) (ds ++ '\'' :: c :: rest) =
              some (.literal (String.ofList (cs ++ (pending ++ x :: y :: ds))) :: tokens) := by
          rcases hx with rfl | rfl
          · have hquote : lex (.quote cs) (y :: (ds ++ '\'' :: c :: rest)) =
                some (.literal (String.ofList (cs ++ (pending ++ '\'' :: y :: ds))) :: tokens) := h
            by_cases hy : y = '\''
            · subst hy
              exact ⟨'\'', .inl rfl, hquote⟩
            · exact absurd (eq_nil_of_lex_quote hy hquote) (by simp)
          · obtain ⟨z, hz, hspecial⟩ := exists_unescape fun hy ↦ hwild ⟨rfl, hy⟩
            have hescape : lex (.literal (cs ++ [z])) (ds ++ '\'' :: c :: rest) =
                some (.literal (String.ofList (cs ++ (pending ++ '\\' :: y :: ds))) :: tokens) := by
              rw [← hz]
              exact h
            obtain ⟨more, hmore⟩ := eq_cons_of_lex hescape
            have hzspecial : IsSpecial z := by
              by_contra hplain
              obtain rfl := pending_eq_nil hpending hplain hmore
              exact hplain (.inr (List.cons.inj hmore).1.symm)
            exact ⟨z, hspecial hzspecial ▸ hzspecial, hescape⟩
        obtain ⟨more, hmore⟩ := eq_cons_of_lex hgo
        obtain ⟨pending', hne, hpending', rfl⟩ := exists_pending hpending hx hy hmore
        rw [hmore, List.append_cons cs z (pending' ++ ds)] at hgo
        exact absurd (eq_nil_of_lex_literal hc ds pending' _ hpending' hgo).1 hne
    · have hgo : lex (.literal (cs ++ [x])) (y :: ds ++ '\'' :: c :: rest) =
          some (.literal (String.ofList (cs ++ (pending ++ x :: y :: ds))) :: tokens) := by
        rw [← lex_literal_step (not_isSpecial.1 hx)]
        exact h
      obtain ⟨more, hmore⟩ := eq_cons_of_lex hgo
      obtain rfl := pending_eq_nil hpending hx hmore
      have hrest : lex (.literal (cs ++ [x])) (y :: ds ++ '\'' :: c :: rest) =
          some (.literal (String.ofList (cs ++ [x] ++ ([] ++ y :: ds))) :: tokens) := by
        rw [hgo, List.nil_append, List.nil_append, ← List.append_cons]
      obtain ⟨-, hds⟩ := eq_nil_of_lex_literal hc (y :: ds) [] (cs ++ [x]) (by simp) hrest
      obtain ⟨hquote, hslash⟩ := not_isSpecial.1 hx
      exact ⟨rfl, hquote, fun hx ↦ absurd hx hslash, hds⟩

/-- **A literal is read as it is** exactly if it is kept. -/
theorem lex_literal_iff {tokens : List Token} (hc : c ≠ '\'' ∧ c ≠ '\\') :
    lex .blank ('\'' :: (v.toList ++ '\'' :: c :: rest)) = some (.literal v :: tokens) ↔
      IsKept v ∧ lex .blank (c :: rest) = some tokens := by
  constructor
  · intro h
    have hliteral : lex (.literal []) (v.toList ++ '\'' :: c :: rest) =
        some (.literal (String.ofList ([] ++ ([] ++ v.toList))) :: tokens) := by
      rw [← lex_quote, h, List.nil_append, List.nil_append, String.ofList_toList]
    have hv : IsKept v :=
      (eq_nil_of_lex_literal (not_isSpecial.2 hc) v.toList [] [] (by simp) hliteral).2
    rw [lex_literal hv hc.1] at h
    obtain ⟨ts, hts, heq⟩ := Option.map_eq_some_iff.1 h
    exact ⟨hv, hts.trans (congrArg some (List.cons.inj heq).2)⟩
  · rintro ⟨hv, h⟩
    rw [lex_literal hv hc.1, h]
    rfl

/-- What stands in front of a text is no longer than the text. -/
theorem length_le_of_lex_literal {tokens : List Token} {input : List Char}
    (h : lex .blank ('\'' :: input) = some (.literal v :: tokens)) :
    v.toList.length ≤ input.length := by
  rw [lex_quote] at h
  obtain ⟨more, ts, hle, htokens⟩ := (literal_of_lex input).1 _ _ h
  rw [Token.literal.inj (List.cons.inj htokens).1, String.toList_ofList]
  exact hle

/-! ### Texts that end in a literal -/

/-- The symbols that begin no comment and no other kind of quoted text. -/
def plainSymbols : List Char := ['=', ',', '(', ')', '*', ';']

/-- The text ends in a literal: another quote would close it. -/
def EndsInLiteral (cs : List Char) : Prop :=
  lex .blank cs = none ∧ ∃ tokens, lex .blank (cs ++ ['\'']) = some tokens ∧
    ∀ c, .symbol c ∈ tokens → c ∈ plainSymbols

/-- A literal without its second quote is no token, and with the quote at the end of the text it is
one. -/
private theorem lex_openLiteral (hds : ∀ d ∈ ds, d ≠ '\'' ∧ d ≠ '\\') :
    lex (.literal cs) ds = none ∧
      lex (.literal cs) (ds ++ ['\'']) = some [.literal (String.ofList (cs ++ ds))] := by
  induction ds generalizing cs with
  | nil =>
    refine ⟨rfl, ?_⟩
    rw [List.append_nil]
    rfl
  | cons d ds ih =>
    obtain ⟨hd, hds⟩ := List.forall_mem_cons.1 hds
    rw [List.cons_append, lex_literal_step hd, lex_literal_step hd, List.append_cons cs d ds]
    exact ih hds

namespace EndsInLiteral

/-- A text that ends behind the second quote of a literal ends in that literal. -/
theorem quote (hds : ∀ d ∈ ds, d ≠ '\'' ∧ d ≠ '\\') : EndsInLiteral ('\'' :: ds) := by
  have hstart : Mode.start '\'' = ([], .literal []) := rfl
  have hliteral : lex (.literal []) ds = none ∧
      lex (.literal []) (ds ++ ['\'']) = some [.literal (String.ofList ([] ++ ds))] :=
    lex_openLiteral hds
  refine ⟨?_, [.literal (String.ofList ([] ++ ds))], ?_, fun c hc ↦ ?_⟩
  · rw [lex_blank_cons, hstart, hliteral.1]
    rfl
  · rw [List.cons_append, lex_blank_cons, hstart, hliteral.2]
    rfl
  · simp at hc

/-- Text in front of it, with the tokens that it has. -/
theorem of_lex {pre cs : List Char} {tokens : List Token} (h : EndsInLiteral cs)
    (hlex : ∀ rest, lex .blank (pre ++ rest) = (lex .blank rest).map (tokens ++ ·))
    (hsymbols : ∀ c, .symbol c ∈ tokens → c ∈ plainSymbols) : EndsInLiteral (pre ++ cs) := by
  obtain ⟨hnone, ts, hsome, hts⟩ := h
  refine ⟨?_, tokens ++ ts, ?_, fun c hc ↦ ?_⟩
  · rw [hlex, hnone]
    rfl
  · rw [List.append_assoc, hlex, hsome]
    rfl
  · rcases List.mem_append.1 hc with hc | hc
    · exact hsymbols c hc
    · exact hts c hc

end EndsInLiteral

/-! ### Statements, from their tokens -/

/-- Assignments, with commas between them. -/
def assignmentTokens : List (String × String) → List Token
  | [] => []
  | [(name, value)] => [.word name, .symbol '=', .literal value]
  | (name, value) :: rest =>
    .word name :: .symbol '=' :: .literal value :: .symbol ',' :: assignmentTokens rest

/-- Pieces with commas between them, and the closing parenthesis. -/
def listTokens (piece : String → Token) : List String → List Token
  | [] => [.symbol ')']
  | [text] => [piece text, .symbol ')']
  | text :: rest => piece text :: .symbol ',' :: listTokens piece rest

/-- The condition, and the end. -/
def whereTokens (key value : String) : List Token :=
  [.word "where", .word key, .symbol '=', .literal value, .symbol ';']

/-- The tokens of a statement. -/
def Statement.tokens : Statement → List Token
  | .selectAll table => [.word "select", .symbol '*', .word "from", .word table, .symbol ';']
  | .selectCount table key value =>
    [.word "select", .word "count", .symbol '(', .symbol '*', .symbol ')', .word "from",
      .word table] ++ whereTokens key value
  | .update table assignments key value =>
    [.word "update", .word table, .word "set"] ++ assignmentTokens assignments ++
      whereTokens key value
  | .insert table names values =>
    [.word "insert", .word "into", .word table, .symbol '('] ++ listTokens .word names ++
      [.word "values", .symbol '('] ++ listTokens .literal values ++ [.symbol ';']

/-- A statement that assigns something. -/
def Statement.IsProper : Statement → Prop
  | .update _ assignments _ _ => assignments ≠ []
  | .insert _ names values => names ≠ [] ∧ values ≠ []
  | _ => True

/-- **Assignments are read** up to the condition, as they were written. -/
theorem parseAssignments_tokens {assignments : List (String × String)} (hne : assignments ≠ [])
    (key value : String) :
    parseAssignments (assignmentTokens assignments ++ whereTokens key value) =
      some (assignments, whereTokens key value) := by
  induction assignments with
  | nil => exact absurd rfl hne
  | cons a rest ih =>
    cases rest with
    | nil => rfl
    | cons b rest =>
      have hrest := ih (List.cons_ne_nil b rest)
      show (parseAssignments (assignmentTokens (b :: rest) ++ whereTokens key value)).map _ = _
      rw [hrest]
      rfl

/-- **Names in brackets** are read as they were written. -/
theorem parseNames_tokens {names : List String} (hne : names ≠ []) (after : List Token) :
    parseNames (listTokens .word names ++ after) = some (names, after) := by
  induction names with
  | nil => exact absurd rfl hne
  | cons a rest ih =>
    cases rest with
    | nil => rfl
    | cons b rest =>
      have hrest := ih (List.cons_ne_nil b rest)
      show (parseNames (listTokens .word (b :: rest) ++ after)).map _ = _
      rw [hrest]
      rfl

/-- **Values in brackets** are read as they were written. -/
theorem parseValues_tokens {values : List String} (hne : values ≠ []) (after : List Token) :
    parseValues (listTokens .literal values ++ after) = some (values, after) := by
  induction values with
  | nil => exact absurd rfl hne
  | cons a rest ih =>
    cases rest with
    | nil => rfl
    | cons b rest =>
      have hrest := ih (List.cons_ne_nil b rest)
      show (parseValues (listTokens .literal (b :: rest) ++ after)).map _ = _
      rw [hrest]
      rfl

/-- **Every statement is read off its tokens.** -/
theorem parse_tokens {statement : Statement} (h : statement.IsProper) :
    parse statement.tokens = some statement := by
  cases statement with
  | selectAll table => rfl
  | selectCount table key value => rfl
  | update table assignments key value =>
    show (parseAssignments (assignmentTokens assignments ++ whereTokens key value)).bind _ = _
    rw [parseAssignments_tokens h, Option.bind_some]
    rfl
  | insert table names values =>
    have htokens : (Statement.insert table names values).tokens =
        .word "insert" :: .word "into" :: .word table :: .symbol '(' ::
          (listTokens .word names ++ (.word "values" :: .symbol '(' ::
            (listTokens .literal values ++ [.symbol ';']))) := by
      simp only [Statement.tokens, List.append_assoc, List.cons_append, List.nil_append]
    rw [htokens, parse, parseNames_tokens h.1]
    simp only [parseValues_tokens h.2]

theorem eq_of_parseWhere {tokens : List Token} {key value : String}
    (h : parseWhere tokens = some (key, value)) : tokens = whereTokens key value := by
  unfold parseWhere at h
  split at h
  · obtain ⟨rfl, rfl⟩ := Prod.mk.inj (Option.some.inj h)
    rfl
  · cases h

theorem eq_of_parseAssignments {tokens after : List Token} {assignments : List (String × String)}
    (h : parseAssignments tokens = some (assignments, after)) :
    assignments ≠ [] ∧ tokens = assignmentTokens assignments ++ after := by
  induction tokens using parseAssignments.induct generalizing assignments with
  | case1 name value rest ih =>
    rw [parseAssignments] at h
    obtain ⟨⟨more, after⟩, hmore, heq⟩ := Option.map_eq_some_iff.1 h
    obtain ⟨rfl, rfl⟩ := Prod.mk.inj heq
    obtain ⟨hne, rfl⟩ := ih hmore
    obtain ⟨b, more, rfl⟩ := List.exists_cons_of_ne_nil hne
    exact ⟨List.cons_ne_nil _ _, rfl⟩
  | case2 name value rest hcomma =>
    rw [parseAssignments] at h
    · obtain ⟨rfl, rfl⟩ := Prod.mk.inj (Option.some.inj h)
      exact ⟨List.cons_ne_nil _ _, rfl⟩
    · exact hcomma
  | case3 tokens hcomma hlast =>
    rw [parseAssignments] at h
    · cases h
    · exact hcomma
    · exact hlast

theorem eq_of_parseNames {tokens after : List Token} {names : List String}
    (h : parseNames tokens = some (names, after)) :
    names ≠ [] ∧ tokens = listTokens .word names ++ after := by
  induction tokens using parseNames.induct generalizing names with
  | case1 name rest ih =>
    rw [parseNames] at h
    obtain ⟨⟨more, after⟩, hmore, heq⟩ := Option.map_eq_some_iff.1 h
    obtain ⟨rfl, rfl⟩ := Prod.mk.inj heq
    obtain ⟨hne, rfl⟩ := ih hmore
    obtain ⟨b, more, rfl⟩ := List.exists_cons_of_ne_nil hne
    exact ⟨List.cons_ne_nil _ _, rfl⟩
  | case2 name rest =>
    rw [parseNames] at h
    obtain ⟨rfl, rfl⟩ := Prod.mk.inj (Option.some.inj h)
    exact ⟨List.cons_ne_nil _ _, rfl⟩
  | case3 tokens hcomma hlast =>
    rw [parseNames] at h
    · cases h
    · exact hcomma
    · exact hlast

theorem eq_of_parseValues {tokens after : List Token} {values : List String}
    (h : parseValues tokens = some (values, after)) :
    values ≠ [] ∧ tokens = listTokens .literal values ++ after := by
  induction tokens using parseValues.induct generalizing values with
  | case1 value rest ih =>
    rw [parseValues] at h
    obtain ⟨⟨more, after⟩, hmore, heq⟩ := Option.map_eq_some_iff.1 h
    obtain ⟨rfl, rfl⟩ := Prod.mk.inj heq
    obtain ⟨hne, rfl⟩ := ih hmore
    obtain ⟨b, more, rfl⟩ := List.exists_cons_of_ne_nil hne
    exact ⟨List.cons_ne_nil _ _, rfl⟩
  | case2 value rest =>
    rw [parseValues] at h
    obtain ⟨rfl, rfl⟩ := Prod.mk.inj (Option.some.inj h)
    exact ⟨List.cons_ne_nil _ _, rfl⟩
  | case3 tokens hcomma hlast =>
    rw [parseValues] at h
    · cases h
    · exact hcomma
    · exact hlast

/-- **The grammar is read in one way.** A statement was parsed from its own tokens and no others, so
a theorem about the tokens is one about the statements. -/
theorem eq_of_parse {tokens : List Token} {statement : Statement}
    (h : parse tokens = some statement) : statement.IsProper ∧ tokens = statement.tokens := by
  unfold parse at h
  split at h
  · obtain rfl := Option.some.inj h
    exact ⟨trivial, rfl⟩
  · obtain ⟨⟨key, value⟩, hwhere, rfl⟩ := Option.map_eq_some_iff.1 h
    rw [eq_of_parseWhere hwhere]
    exact ⟨trivial, rfl⟩
  · obtain ⟨⟨assignments, after⟩, hassignments, hafter⟩ := Option.bind_eq_some_iff.1 h
    obtain ⟨⟨key, value⟩, hwhere, rfl⟩ := Option.map_eq_some_iff.1 hafter
    obtain ⟨hne, rfl⟩ := eq_of_parseAssignments hassignments
    obtain rfl := eq_of_parseWhere hwhere
    exact ⟨hne, by simp [Statement.tokens]⟩
  · split at h
    · next names rest hnames =>
      split at h
      · next values hvalues =>
        obtain rfl := Option.some.inj h
        obtain ⟨hne, rfl⟩ := eq_of_parseNames hnames
        obtain ⟨hne', rfl⟩ := eq_of_parseValues hvalues
        exact ⟨⟨hne, hne'⟩, by simp [Statement.tokens]⟩
      · cases h
    · cases h
  · cases h

/-- **Reading a statement**, from a text with its tokens. -/
theorem read_of_lex {reserved : String → Bool} {text : String} {statement : Statement}
    (hlex : lex .blank text.toList = some statement.tokens) (hproper : statement.IsProper)
    (hnames : ∀ name ∈ statement.names, reserved name = false) :
    read reserved text = some statement := by
  rw [read, hlex, Option.bind_some, parse_tokens hproper, Option.filter_some]
  rw [if_pos]
  simpa using hnames

/-- **A statement is read from its own tokens**, and from those of no other statement. -/
theorem read_eq_some_iff {reserved : String → Bool} {text : String} {statement : Statement}
    (hproper : statement.IsProper) (hnames : ∀ name ∈ statement.names, reserved name = false) :
    read reserved text = some statement ↔ lex .blank text.toList = some statement.tokens := by
  refine ⟨fun h ↦ ?_, fun h ↦ read_of_lex h hproper hnames⟩
  obtain ⟨hbind, -⟩ := Option.filter_eq_some_iff.1 h
  obtain ⟨tokens, hlex, hparse⟩ := Option.bind_eq_some_iff.1 hbind
  rw [hlex, (eq_of_parse hparse).2]

end Sql
