import FreifunkManager.Shell.Reader
import Mathlib.Data.List.TakeWhile

/-! # Values between single quotes

A command text is often built by writing a value between single quotes, unescaped. A value without
a single quote then arrives as part of one word, character for character (`tokenize_clean`). Any
other value gets out of its quotes, and the word it was meant to be part of is never read: every
word falls short of it, is not literal, or lies outside of the value (`tokenize_spoiled`).
-/

namespace Shell

open Scanner

namespace Scanner

theorem scan_append (s : Scanner) (first second : List Char) :
    s.scan (first ++ second) = (s.scan first).scan second := List.foldl_append

@[simp] theorem scan_cons (s : Scanner) (c : Char) (text : List Char) :
    s.scan (c :: text) = (s.step c).scan text := rfl

@[simp] theorem scan_nil (s : Scanner) : s.scan [] = s := rfl

/-- Between single quotes, everything but the closing quote is literal. -/
theorem scan_single {value : List Char} (clean : '\'' ∉ value) (tokens : List Token) (pieces : List Piece) :
    (Scanner.mk tokens (some pieces) .single).scan value =
      { tokens, word := some ((value.map .literal).reverse ++ pieces), mode := .single } := by
  induction value generalizing pieces with
  | nil => rfl
  | cons c value ih =>
    rw [List.mem_cons, not_or] at clean
    rw [scan_cons, step, if_neg (Ne.symm clean.1), push, Option.getD_some, ih clean.2]
    simp

private theorem plain_name {c : Char} (name : isName c) (s : Scanner) :
    s.plain c = { s.push (.literal c) with mode := .plain } := by
  have other {d : Char} (special : isName d = false) : c ≠ d := by
    rintro rfl
    rw [special] at name
    contradiction
  have word : isOperator c = false := by
    simp only [isOperator, List.mem_cons, List.not_mem_nil, or_false, decide_eq_false_iff_not, not_or]
    exact ⟨other rfl, other rfl, other rfl, other rfl, other rfl, other rfl, other rfl, other rfl⟩
  rw [plain, if_neg (other rfl), if_neg (other rfl), if_neg (other rfl), if_neg (other rfl), if_neg (other rfl),
    if_neg (by simp [other (d := ' ') rfl, other (d := '\t') rfl]), word, if_neg (by decide),
    if_neg fun comment => other rfl comment.1]

/-- The characters of a name stand for themselves. -/
theorem scan_names {name : List Char} (named : ∀ c ∈ name, isName c) (tokens : List Token) (pieces : List Piece) :
    (Scanner.mk tokens (some pieces) .plain).scan name =
      { tokens, word := some ((name.map .literal).reverse ++ pieces), mode := .plain } := by
  induction name generalizing pieces with
  | nil => rfl
  | cons c name ih =>
    rw [scan_cons, step, plain_name (named c (List.mem_cons_self ..)), push, Option.getD_some,
      ih fun d member => named d (List.mem_cons_of_mem c member)]
    simp

/-- The scanner with more tokens read before. -/
def after (old : List Token) (s : Scanner) : Scanner := { s with tokens := s.tokens ++ old }

section After

variable (old : List Token) (s : Scanner)

private theorem after_push (piece : Piece) : (s.after old).push piece = (s.push piece).after old := rfl

private theorem after_flush : (s.after old).flush = s.flush.after old := by
  cases reading : s.word <;> simp [flush, after, reading]

private theorem after_operator (c : Char) : (s.after old).operator c = (s.operator c).after old := by
  simp only [operator, after_flush]; rfl

private theorem after_plain (c : Char) : (s.after old).plain c = (s.plain c).after old := by
  simp only [plain, after_flush, after_operator, after_push, apply_ite (after old)]
  rfl

private theorem after_resume (between : Bool) (c : Char) :
    (s.after old).resume between c = (s.resume between c).after old := by
  cases between with
  | false => exact after_plain old s c
  | true =>
    simp only [resume, quoted, after_push, apply_ite (after old)]
    rfl

theorem after_step (c : Char) : (s.after old).step c = (s.step c).after old := by
  obtain ⟨tokens, word, mode⟩ := s
  cases mode with
  | plain => exact after_plain ..
  | double => exact after_resume old _ true c
  | single => simp only [step, after]; split <;> rfl
  | escape between => simp only [step, after]; split_ifs <;> rfl
  | comment =>
    have ends := after_operator old ⟨tokens, word, .comment⟩ c
    simp only [step, after] at ends ⊢
    split
    · rw [ends]
    · rfl
  | dollar between =>
    have ends := after_resume old ((Scanner.mk tokens word (.dollar between)).push (.literal '$')) between c
    simp only [step, apply_ite (after old), ← ends]
    rfl
  | name between source =>
    have ends := after_resume old
      ((Scanner.mk tokens word (.name between source)).push (.expansion source.reverse)) between c
    simp only [step, apply_ite (after old), ← ends]
    rfl
  | capture between opened previous source =>
    simp only [step, after]
    split <;> rfl

theorem after_scan (text : List Char) : (s.after old).scan text = (s.scan text).after old := by
  induction text generalizing s with
  | nil => rfl
  | cons c text ih => rw [scan_cons, after_step, ih, scan_cons]

theorem after_finish : (s.after old).finish = s.finish.map (old.reverse ++ ·) := by
  have flushed (s : Scanner) : (s.after old).flush.tokens.reverse = old.reverse ++ s.flush.tokens.reverse := by
    rw [after_flush, after, List.reverse_append]
  obtain ⟨tokens, word, mode⟩ := s
  cases mode with
  | plain | comment => exact congrArg some (flushed _)
  | escape between | dollar between | name between source =>
    cases between with
    | true => rfl
    | false => exact congrArg some (flushed (Scanner.push ⟨tokens, word, _⟩ _))
  | _ => rfl

end After

end Scanner

/-- What is read after a separator does not depend on what was read before. -/
theorem finish_scan (old : List Token) (text : List Char) :
    ((Scanner.mk old none .plain).scan text).finish = (tokenize text).map (old.reverse ++ ·) := by
  rw [tokenize, ← after_finish, ← after_scan]
  rfl

theorem commands_append (first second : List Token) :
    commands (first ++ .operator ';' :: second) = commands first ++ commands second := by
  rw [commands, List.splitOnP_append_cons _ _ (by decide), List.filter_append]
  rfl

private theorem mem_splitOnP {p : Token → Bool} {token : Token} {tokens : List Token} :
    (∃ part ∈ tokens.splitOnP p, token ∈ part) ↔ token ∈ tokens ∧ p token = false := by
  induction tokens with
  | nil => simp
  | cons first tokens ih =>
    obtain ⟨head, rest, split⟩ := List.exists_cons_of_ne_nil (List.splitOnP_ne_nil p tokens)
    simp only [split, List.mem_cons, exists_eq_or_imp] at ih
    rw [List.splitOnP_cons_eq_if_modifyHead, split, List.mem_cons, or_and_right, ← ih]
    split
    · next separator =>
      have other : ¬(token = first ∧ p token = false) := by
        rintro ⟨rfl, word⟩
        rw [separator] at word
        contradiction
      simp [other]
    · next word =>
      simp only [List.modifyHead_cons, List.mem_cons, exists_eq_or_imp]
      constructor
      · rintro ((rfl | inner) | later)
        · exact .inl ⟨rfl, by simpa using word⟩
        · exact .inr (.inl inner)
        · exact .inr (.inr later)
      · rintro (⟨rfl, _⟩ | inner | later)
        · exact .inl (.inl rfl)
        · exact .inl (.inr inner)
        · exact .inr later

/-- The words of the commands are the words of the text. -/
theorem mem_commands {pieces : List Piece} {tokens : List Token} :
    (∃ command ∈ commands tokens, .word pieces ∈ command) ↔ .word pieces ∈ tokens := by
  have words : (∃ part ∈ tokens.splitOnP fun token => token == .operator ';' || token == .operator '\n',
      .word pieces ∈ part) ↔ .word pieces ∈ tokens := mem_splitOnP.trans (and_iff_left rfl)
  rw [← words]
  constructor
  · rintro ⟨command, run, member⟩
    exact ⟨command, (List.mem_filter.mp run).1, member⟩
  · rintro ⟨command, part, member⟩
    exact ⟨command, List.mem_filter.mpr ⟨part, decide_eq_true (List.ne_nil_of_mem member)⟩, member⟩

/-! ### Literals

The characters of a literal as they are written, which spares decoding it. -/

section Literals

variable {text : String} {chars : List Char} {c : Char}

theorem toList_literal (literal : text = String.ofList chars) : text.toList = chars := by
  rw [literal, String.toList_ofList]

theorem take_literal (literal : text = String.ofList chars) (rest : String) {k : ℕ} (short : k ≤ chars.length) :
    (text ++ rest).toList.take k = chars.take k := by
  rw [String.toList_append, toList_literal literal, List.take_append_of_le_length short]

theorem mem_literal (literal : text = String.ofList chars) (present : c ∈ chars) : c ∈ text.toList := by
  rwa [toList_literal literal]

theorem not_mem_literal (literal : text = String.ofList chars) (absent : c ∉ chars) : c ∉ text.toList := by
  rwa [toList_literal literal]

theorem append_literal {second : String} {chars' : List Char} (literal : text = String.ofList chars)
    (next : second = String.ofList chars') : text ++ second = String.ofList (chars ++ chars') := by
  rw [literal, next, String.ofList_append]

theorem tokenize_literal {tokens : Option (List Token)} (literal : text = String.ofList chars)
    (reads : tokenize chars = tokens) : tokenize text.toList = tokens := by
  rw [toList_literal literal, reads]

theorem read_literal {list : Option (List (List Token))} (literal : text = String.ofList chars)
    (reads : (tokenize (chars.takeWhile (· ≠ '\x00'))).map commands = list) : read text = list := by
  rw [read, toList_literal literal, reads]

/-- A literal that is written in two parts. -/
theorem literal_append {first second : String} {chars' : List Char} (one : first = String.ofList chars)
    (two : second = String.ofList chars') (literal : text = String.ofList (chars ++ chars')) :
    text = first ++ second := by
  rw [literal, append_literal one two]

end Literals

/-- A place for a value in a command text: between single quotes, at the end of a word and before
a semicolon. `key` is the part of the word before the value. -/
structure Slot where
  before : String
  rest : String
  /-- The tokens before the word, the latest first. -/
  tokens : List Token
  key : String
  opens : Scanner.start.scan before.toList =
    { tokens, word := some (key.toList.map .literal).reverse, mode := .single }

theorem scan_literal {before key : String} {chars keyChars : List Char} {tokens : List Token} {mode : Mode}
    (literal : before = String.ofList chars) (keyed : key = String.ofList keyChars)
    (scans : Scanner.start.scan chars = { tokens, word := some (keyChars.map .literal).reverse, mode }) :
    Scanner.start.scan before.toList = { tokens, word := some (key.toList.map .literal).reverse, mode } := by
  rw [toList_literal literal, toList_literal keyed, scans]

/-- A text with a name in the middle of its last word, up to the opening quote of a value. -/
theorem scan_around_name {first second key₁ key₂ name : String} {tokens : List Token} {chars keyChars : List Char}
    (named : ∀ c ∈ name.toList, isName c)
    (opened : Scanner.start.scan first.toList =
      { tokens, word := some (key₁.toList.map .literal).reverse, mode := .plain })
    (literal : second = String.ofList chars) (keyed : key₂ = String.ofList keyChars)
    (closed : ∀ pieces, (Scanner.mk tokens (some pieces) .plain).scan chars =
      { tokens, word := some ((keyChars.map .literal).reverse ++ pieces), mode := .single }) :
    Scanner.start.scan (first ++ name ++ second).toList =
      { tokens, word := some ((key₁ ++ name ++ key₂).toList.map .literal).reverse, mode := .single } := by
  simp only [String.toList_append, scan_append, opened, scan_names named, toList_literal literal, toList_literal keyed,
    closed, List.map_append, List.reverse_append]

namespace Slot

variable (slot : Slot) {value : List Char}

/-- The command text with a value in its place. -/
def text (value : String) : String := slot.before ++ value ++ ("';" ++ slot.rest)

/-- The same text as characters. -/
def chars (value : List Char) : List Char := slot.before.toList ++ (value ++ '\'' :: ';' :: slot.rest.toList)

theorem toList_text (value : String) : (slot.text value).toList = slot.chars value.toList := by
  simp [text, chars]

private theorem scan_before (text : List Char) :
    Scanner.start.scan (slot.before.toList ++ text) =
      (Scanner.mk slot.tokens (some (slot.key.toList.map .literal).reverse) .single).scan text := by
  rw [scan_append, slot.opens]

/-- A value without a single quote is read back as it was written. -/
theorem tokenize_clean (clean : '\'' ∉ value) :
    tokenize (slot.chars value) = (tokenize slot.rest.toList).map
      (slot.tokens.reverse ++ Token.text (slot.key.toList ++ value) :: .operator ';' :: ·) := by
  have closed : (Scanner.mk slot.tokens (some (slot.key.toList.map .literal).reverse) .single).scan
      (value ++ '\'' :: ';' :: slot.rest.toList) =
        (Scanner.mk (.operator ';' :: Token.text (slot.key.toList ++ value) :: slot.tokens) none .plain).scan
          slot.rest.toList := by
    rw [scan_append, scan_single clean, scan_cons, scan_cons]
    simp [step, plain, isOperator, operator, flush, Token.text]
  rw [tokenize, chars, scan_before, closed, finish_scan]
  simp

end Slot

/-! ## What a value can do once it is out of its quotes -/

/-- How many characters of a word stand for themselves. -/
def weight (pieces : List Piece) : ℕ := pieces.countP fun piece => piece matches .literal _

/-- The word contains an expansion. -/
def Expands (pieces : List Piece) : Prop := ∃ source, .expansion source ∈ pieces

/-- The word assigns nothing: it has no equals sign of its own. -/
def Bare (pieces : List Piece) : Prop := .literal '=' ∉ pieces

instance (pieces : List Piece) : Decidable (Bare pieces) := inferInstanceAs (Decidable (_ ∉ _))

/-- What the words are like since the slot's word was opened: `own` describes what follows the key in
the slot's word, `other` the words after it; `ended` and `begun` tell the finished ones from the last
one. -/
structure Shape where
  own : List Piece → Prop
  other : List Piece → Prop

def Shaped (slot : Slot) (ended begun : Shape) (s : Scanner) : Prop :=
  (∃ own, s.tokens = slot.tokens ∧ s.word = some (own ++ (slot.key.toList.map .literal).reverse) ∧ begun.own own) ∨
  (∃ own later, s.tokens = later ++ .word (own ++ (slot.key.toList.map .literal).reverse).reverse :: slot.tokens ∧
    ended.own own ∧ (∀ pieces, .word pieces.reverse ∈ later → ended.other pieces) ∧
    ∀ pieces ∈ s.word, begun.other pieces)

namespace Shaped

variable {slot : Slot} {ended begun begun' : Shape} {s : Scanner}

theorem mode (shaped : Shaped slot ended begun s) (mode : Mode) : Shaped slot ended begun { s with mode } :=
  shaped

theorem mono (ended' : Shape) (shaped : Shaped slot ended begun s)
    (endedOwn : ∀ pieces, ended.own pieces → ended'.own pieces)
    (endedOther : ∀ pieces, ended.other pieces → ended'.other pieces)
    (begunOwn : ∀ pieces, begun.own pieces → begun'.own pieces)
    (begunOther : ∀ pieces, begun.other pieces → begun'.other pieces) : Shaped slot ended' begun' s := by
  rcases shaped with ⟨own, tokens, word, kept⟩ | ⟨own, later, tokens, kept, finished, reading⟩
  · exact .inl ⟨own, tokens, word, begunOwn _ kept⟩
  · exact .inr ⟨own, later, tokens, endedOwn _ kept, fun pieces member => endedOther _ (finished pieces member),
      fun pieces member => begunOther _ (reading pieces member)⟩

theorem push {piece : Piece} (shaped : Shaped slot ended begun s)
    (own : ∀ pieces, begun.own pieces → begun'.own (piece :: pieces))
    (other : ∀ pieces, begun.other pieces → begun'.other (piece :: pieces)) (empty : begun.other []) :
    Shaped slot ended begun' (s.push piece) := by
  rcases shaped with ⟨first, tokens, word, kept⟩ | ⟨first, later, tokens, kept, finished, reading⟩
  · exact .inl ⟨piece :: first, tokens, by rw [Scanner.push, word]; rfl, own _ kept⟩
  · refine .inr ⟨first, later, tokens, kept, finished, fun pieces member => ?_⟩
    cases Option.some.inj member
    cases word : s.word with
    | none => exact other _ empty
    | some pieces => exact other _ (reading pieces word)

theorem quote (shaped : Shaped slot ended begun s) (empty : begun.other []) :
    Shaped slot ended begun s.quote := by
  rcases shaped with ⟨first, tokens, word, kept⟩ | ⟨first, later, tokens, kept, finished, reading⟩
  · exact .inl ⟨first, tokens, by rw [Scanner.quote, word]; rfl, kept⟩
  · refine .inr ⟨first, later, tokens, kept, finished, fun pieces member => ?_⟩
    cases Option.some.inj member
    cases word : s.word with
    | none => exact empty
    | some pieces => exact reading pieces word

/-- Ending the word leaves none, so that any description fits what is being read. -/
theorem flush (begun' : Shape) (shaped : Shaped slot ended begun s)
    (own : ∀ pieces, begun.own pieces → ended.own pieces)
    (other : ∀ pieces, begun.other pieces → ended.other pieces) : Shaped slot ended begun' s.flush := by
  rcases shaped with ⟨first, tokens, word, kept⟩ | ⟨first, later, tokens, kept, finished, reading⟩
  · refine .inr ⟨first, [], ?_, own _ kept, fun _ member => absurd member List.not_mem_nil, ?_⟩
    · rw [Scanner.flush, word, tokens]; rfl
    · rw [Scanner.flush, word]; simp
  · cases word : s.word with
    | none => exact .inr ⟨first, later, by rw [Scanner.flush, word, tokens], kept, finished,
        by rw [Scanner.flush, word]; simp [word]⟩
    | some pieces =>
      refine .inr ⟨first, .word pieces.reverse :: later, by rw [Scanner.flush, word, tokens]; rfl, kept,
        fun ended member => ?_, by rw [Scanner.flush, word]; simp⟩
      rcases List.mem_cons.mp member with last | before
      · rw [Token.word.injEq, List.reverse_inj] at last
        exact last ▸ other _ (reading pieces word)
      · exact finished ended before

theorem operator {c : Char} (shaped : Shaped slot ended begun s)
    (own : ∀ pieces, begun.own pieces → ended.own pieces)
    (other : ∀ pieces, begun.other pieces → ended.other pieces) : Shaped slot ended begun' (s.operator c) := by
  rcases shaped.flush begun' own other with
    ⟨first, _, word, _⟩ | ⟨first, later, tokens, kept, finished, reading⟩
  · have flushed : s.flush.word = none := by cases word : s.word <;> simp [Scanner.flush, word]
    rw [flushed] at word
    contradiction
  · refine .inr ⟨first, .operator c :: later, by rw [Scanner.operator, tokens]; rfl, kept, ?_, reading⟩
    intro pieces member
    rcases List.mem_cons.mp member with last | before
    · contradiction
    · exact finished pieces before

end Shaped

/-! ### Inside the value -/

@[simp] theorem weight_nil : weight [] = 0 := rfl

@[simp] theorem weight_literal (c : Char) (pieces : List Piece) :
    weight (.literal c :: pieces) = weight pieces + 1 := List.countP_cons_of_pos rfl

@[simp] theorem weight_expansion (source : List Char) (pieces : List Piece) :
    weight (.expansion source :: pieces) = weight pieces := List.countP_cons_of_neg (by simp)

/-- Characters that were read but are not part of a word yet. -/
def Mode.pending : Mode → ℕ
  | .escape _ | .dollar _ => 1
  | _ => 0

def light (m : ℕ) : Shape := ⟨fun pieces => weight pieces ≤ m, fun pieces => weight pieces ≤ m⟩

/-- No word weighs more than `k` characters can. -/
def Light (slot : Slot) (k : ℕ) (s : Scanner) : Prop :=
  ∃ m, m + s.mode.pending ≤ k ∧ Shaped slot (light m) (light m) s

section Light

variable {slot : Slot} {s : Scanner} {m k : ℕ}

private theorem light_literal (c : Char) (shaped : Shaped slot (light m) (light m) s) :
    Shaped slot (light (m + 1)) (light (m + 1)) (s.push (.literal c)) := by
  have grows (pieces : List Piece) (light : weight pieces ≤ m) : weight pieces ≤ m + 1 := by omega
  have pushes (pieces : List Piece) (light : weight pieces ≤ m) : weight (.literal c :: pieces) ≤ m + 1 := by
    rw [weight_literal]; omega
  exact (shaped.mono (light (m + 1)) grows grows (fun _ => id) fun _ => id).push pushes pushes
    (Nat.zero_le m)

private theorem light_expansion (source : List Char) (shaped : Shaped slot (light m) (light m) s) :
    Shaped slot (light m) (light m) (s.push (.expansion source)) := by
  have pushes (pieces : List Piece) (light : weight pieces ≤ m) :
      weight (.expansion source :: pieces) ≤ m := by
    rwa [weight_expansion]
  exact shaped.push pushes pushes (Nat.zero_le m)

private theorem light_plain (c : Char) (shaped : Shaped slot (light m) (light m) s) :
    Light slot (m + 1) (s.plain c) := by
  have empty : (light m).other [] := Nat.zero_le m
  have flushed : Shaped slot (light m) (light m) s.flush := shaped.flush _ (fun _ => id) fun _ => id
  have ended : Shaped slot (light m) (light m) (s.operator c) := shaped.operator (fun _ => id) fun _ => id
  unfold plain
  split
  · exact ⟨m, by simp [Mode.pending], shaped.quote empty⟩
  split
  · exact ⟨m, by simp [Mode.pending], shaped.quote empty⟩
  split
  · exact ⟨m, by simp [Mode.pending], shaped⟩
  split
  · exact ⟨m, by simp [Mode.pending], shaped⟩
  split
  · exact ⟨m, by simp [Mode.pending], shaped⟩
  split
  · exact ⟨m, by simp [Mode.pending], flushed⟩
  split
  · exact ⟨m, by simp [Mode.pending], ended⟩
  split
  · exact ⟨m, by simp [Mode.pending], shaped⟩
  exact ⟨m + 1, by simp [Mode.pending], light_literal c shaped⟩

private theorem light_resume (between : Bool) (c : Char) (shaped : Shaped slot (light m) (light m) s) :
    Light slot (m + 1) (s.resume between c) := by
  cases between with
  | false => exact light_plain c shaped
  | true =>
    unfold resume quoted
    split_ifs
    · exact ⟨m, by simp [Mode.pending], shaped⟩
    · exact ⟨m, by simp [Mode.pending], shaped⟩
    · exact ⟨m, by simp [Mode.pending], shaped⟩
    · exact ⟨m, by simp [Mode.pending], shaped⟩
    · exact ⟨m + 1, by simp [Mode.pending], light_literal c shaped⟩
    · contradiction

@[simp] theorem pending_outer (between : Bool) : (outer between).pending = 0 := by cases between <;> rfl

theorem Light.mono {n : ℕ} (light : Light slot k s) (le : k ≤ n) : Light slot n s := by
  obtain ⟨m, fits, shaped⟩ := light
  exact ⟨m, Nat.le_trans fits le, shaped⟩

theorem Light.step (light : Light slot k s) (c : Char) : Light slot (k + 1) (s.step c) := by
  obtain ⟨m, fits, shaped⟩ := light
  obtain ⟨tokens, word, mode⟩ := s
  cases mode with
  | plain => exact (light_plain c shaped).mono (by simpa [Mode.pending] using fits)
  | double => exact (light_resume true c shaped).mono (by simpa [Mode.pending] using fits)
  | single =>
    dsimp only [Mode.pending] at fits
    simp only [Scanner.step]
    split_ifs
    · exact ⟨m, by simp only [Mode.pending]; omega, shaped⟩
    · exact ⟨m + 1, by simp only [Scanner.push, Mode.pending]; omega, light_literal c shaped⟩
  | escape between =>
    dsimp only [Mode.pending] at fits
    simp only [Scanner.step]
    split_ifs
    · exact ⟨m, by simp only [pending_outer]; omega, shaped⟩
    · exact ⟨m + 2, by simp only [pending_outer]; omega, light_literal c (light_literal _ shaped)⟩
    · exact ⟨m + 1, by simp only [pending_outer]; omega, light_literal c shaped⟩
  | comment =>
    dsimp only [Mode.pending] at fits
    simp only [Scanner.step]
    split_ifs
    · exact ⟨m, by simp only [Mode.pending]; omega, shaped.operator (fun _ => id) fun _ => id⟩
    · exact ⟨m, by simp only [Mode.pending]; omega, shaped⟩
  | dollar between =>
    dsimp only [Mode.pending] at fits
    simp only [Scanner.step]
    split_ifs
    · exact ⟨m, by simp only [Mode.pending]; omega, shaped⟩
    · exact ⟨m, by simp only [Mode.pending]; omega, shaped⟩
    · exact ⟨m, by simp only [pending_outer]; omega, light_expansion _ shaped⟩
    · exact ⟨m, by simp only [Mode.pending]; omega, shaped⟩
    · exact (light_resume between c (light_literal '$' shaped)).mono (by omega)
  | name between source =>
    dsimp only [Mode.pending] at fits
    simp only [Scanner.step]
    split_ifs
    · exact ⟨m, by simp only [Mode.pending]; omega, shaped⟩
    · exact (light_resume between c (light_expansion _ shaped)).mono (by omega)
  | capture between opened previous source =>
    dsimp only [Mode.pending] at fits
    simp only [Scanner.step]
    split
    · exact ⟨m, by simp only [pending_outer]; omega, light_expansion _ shaped⟩
    · exact ⟨m, by simp only [Mode.pending]; omega, shaped⟩

theorem Light.scan (light : Light slot k s) (text : List Char) : Light slot (k + text.length) (s.scan text) := by
  induction text generalizing k s with
  | nil => exact light
  | cons c text ih => exact (ih (light.step c)).mono (by simp only [List.length_cons]; omega)

end Light

/-- A value with a single quote in it: its words are shorter than itself. -/
theorem light_value (slot : Slot) {value : List Char} (dirty : '\'' ∈ value) :
    Light slot (value.length - 1)
      ((Scanner.mk slot.tokens (some (slot.key.toList.map .literal).reverse) .single).scan value) := by
  obtain ⟨first, rest, rfl, clean⟩ := List.eq_append_cons_of_mem dirty
  have opened : Light slot first.length
      (Scanner.mk slot.tokens (some ((first.map .literal).reverse ++ (slot.key.toList.map .literal).reverse))
        .plain) := by
    refine ⟨first.length, by simp [Mode.pending], .inl ⟨(first.map .literal).reverse, rfl, rfl, ?_⟩⟩
    exact Nat.le_trans List.countP_le_length (by simp)
  rw [scan_append, scan_single clean, scan_cons, step, if_pos rfl]
  exact (opened.scan rest).mono (by simp only [List.length_append, List.length_cons]; omega)

/-! ### After the value -/

/-- Double quotes are open. -/
def Mode.between : Mode → Bool
  | .double | .escape true | .dollar true | .name true _ | .capture true _ _ _ => true
  | _ => false

/-- No character of the rest can close what is open. -/
def Mode.doomed (mode : Mode) : Bool := mode == .single || mode.between

/-- The word being read is left alone. -/
def Mode.held : Mode → Bool
  | .comment | .capture false _ _ _ => true
  | _ => false

/-- Words that fall short of `n` characters, contain an expansion or assign nothing. -/
def short (n : ℕ) : Shape where
  own pieces := weight pieces < n ∨ Expands pieces
  other pieces := weight pieces < n ∨ Expands pieces ∨ Bare pieces

/-- Words that can get any length from the rest of the text. -/
def loose : Shape where
  own := Expands
  other pieces := Expands pieces ∨ Bare pieces

/-- The state after the value and some of the rest, where `n` is the length of the value. -/
def Tail (slot : Slot) (n : ℕ) (s : Scanner) : Prop :=
  s.mode.doomed ∨ (s.mode.held ∧ Shaped slot (short n) (short n) s) ∨ Shaped slot (short n) loose s

/-- A character that neither opens nor closes quotes and assigns nothing. -/
def Harmless (c : Char) : Prop := c ≠ '\'' ∧ c ≠ '"' ∧ c ≠ '='

instance (c : Char) : Decidable (Harmless c) := inferInstanceAs (Decidable (_ ∧ _ ∧ _))

theorem harmless_literal {text : String} {chars : List Char} (literal : text = String.ofList chars)
    (all : (chars.all fun c => Harmless c) = true) : ∀ c ∈ text.toList, Harmless c := by
  rw [toList_literal literal]
  exact fun c member => of_decide_eq_true (List.all_eq_true.mp all c member)

section Tail

variable {slot : Slot} {s : Scanner} {n : ℕ} {c : Char}

private theorem doomed_resume (double : c ≠ '"') : (s.resume true c).mode.doomed := by
  unfold resume quoted
  split_ifs <;> first | contradiction | rfl

theorem doomed_step (doomed : s.mode.doomed) (double : c ≠ '"') (single : s.mode.between ∨ c ≠ '\'') :
    (s.step c).mode.doomed := by
  obtain ⟨tokens, word, mode⟩ := s
  cases mode with
  | single =>
    have open_ : c ≠ '\'' := single.resolve_left (by simp [Mode.between])
    simp only [step, if_neg open_]
    rfl
  | double => exact doomed_resume double
  | escape between =>
    cases between with
    | false => contradiction
    | true => simp only [step]; split_ifs <;> rfl
  | dollar between =>
    cases between with
    | false => contradiction
    | true => simp only [step]; split_ifs <;> first | rfl | exact doomed_resume double
  | name between source =>
    cases between with
    | false => contradiction
    | true => simp only [step]; split_ifs <;> first | rfl | exact doomed_resume double
  | capture between opened previous source =>
    cases between with
    | false => contradiction
    | true => simp only [step]; split <;> rfl
  | _ => contradiction

theorem doomed_finish (doomed : s.mode.doomed) : s.finish = none := by
  obtain ⟨tokens, word, mode⟩ := s
  cases mode with
  | escape between | dollar between | name between source | capture between opened previous source =>
    cases between <;> first | rfl | contradiction
  | plain | comment => contradiction
  | _ => rfl

private theorem loose_short : (∀ pieces, loose.own pieces → (short n).own pieces) ∧
    ∀ pieces, loose.other pieces → (short n).other pieces := ⟨fun _ => .inr, fun _ => .inr⟩

private theorem loose_literal (harmless : c ≠ '=') (shaped : Shaped slot (short n) loose s) :
    Shaped slot (short n) loose (s.push (.literal c)) := by
  refine shaped.push (fun pieces ⟨source, member⟩ => ⟨source, List.mem_cons_of_mem _ member⟩) ?_ (.inr (by simp [Bare]))
  rintro pieces (⟨source, member⟩ | bare)
  · exact .inl ⟨source, List.mem_cons_of_mem _ member⟩
  · exact .inr (by simpa [Bare, Ne.symm harmless] using bare)

private theorem loose_expansion {begun : Shape} (source : List Char) (empty : begun.other [])
    (shaped : Shaped slot (short n) begun s) : Shaped slot (short n) loose (s.push (.expansion source)) :=
  shaped.push (fun _ _ => ⟨source, List.mem_cons_self ..⟩) (fun _ _ => .inl ⟨source, List.mem_cons_self ..⟩) empty

private theorem short_empty : (short n).other [] := .inr (.inr (by simp [Bare]))

private theorem loose_empty : loose.other [] := .inr (by simp [Bare])

private theorem tail_plain (harmless : Harmless c) (shaped : Shaped slot (short n) loose s) :
    Tail slot n (s.plain c) := by
  obtain ⟨own, other⟩ := loose_short (n := n)
  unfold plain
  rw [if_neg harmless.1, if_neg harmless.2.1]
  split_ifs
  · exact .inr (.inr shaped)
  · exact .inr (.inr shaped)
  · exact .inr (.inr shaped)
  · exact .inr (.inr (shaped.flush _ own other))
  · exact .inr (.inr (shaped.operator own other))
  · exact .inr (.inr shaped)
  · exact .inr (.inr (loose_literal harmless.2.2 shaped))

theorem Tail.step (tail : Tail slot n s) (harmless : Harmless c) : Tail slot n (s.step c) := by
  obtain ⟨own, other⟩ := loose_short (n := n)
  obtain ⟨tokens, word, mode⟩ := s
  rcases tail with doomed | ⟨held, shaped⟩ | shaped
  · exact .inl (doomed_step doomed harmless.2.1 (.inr harmless.1))
  · cases mode with
    | comment =>
      simp only [Scanner.step]
      split_ifs
      · exact .inr (.inr (shaped.operator (fun _ => id) fun _ => id))
      · exact .inr (.inl ⟨rfl, shaped⟩)
    | capture between opened previous source =>
      cases between with
      | true => contradiction
      | false =>
        simp only [Scanner.step]
        split
        · exact .inr (.inr (loose_expansion _ short_empty shaped))
        · exact .inr (.inl ⟨rfl, shaped⟩)
    | _ => contradiction
  · cases mode with
    | plain => exact tail_plain harmless shaped
    | double => exact .inl (doomed_step rfl harmless.2.1 (.inl rfl))
    | single => exact .inl (doomed_step rfl harmless.2.1 (.inr harmless.1))
    | escape between =>
      cases between with
      | true => exact .inl (doomed_step rfl harmless.2.1 (.inl rfl))
      | false =>
        simp only [Scanner.step]
        split_ifs
        · exact .inr (.inr shaped)
        · exact .inr (.inr (loose_literal harmless.2.2 (loose_literal (by decide) shaped)))
        · exact .inr (.inr (loose_literal harmless.2.2 shaped))
    | comment =>
      simp only [Scanner.step]
      split_ifs
      · exact .inr (.inr (shaped.operator own other))
      · exact .inr (.inr shaped)
    | dollar between =>
      cases between with
      | true => exact .inl (doomed_step rfl harmless.2.1 (.inl rfl))
      | false =>
        simp only [Scanner.step]
        split_ifs
        · exact .inr (.inr shaped)
        · exact .inr (.inr shaped)
        · exact .inr (.inr (loose_expansion _ loose_empty shaped))
        · exact .inr (.inr shaped)
        · exact tail_plain harmless (loose_literal (by decide) shaped)
    | name between source =>
      cases between with
      | true => exact .inl (doomed_step rfl harmless.2.1 (.inl rfl))
      | false =>
        simp only [Scanner.step]
        split_ifs
        · exact .inr (.inr shaped)
        · exact tail_plain harmless (loose_expansion _ loose_empty shaped)
    | capture between opened previous source =>
      cases between with
      | true => exact .inl (doomed_step rfl harmless.2.1 (.inl rfl))
      | false =>
        simp only [Scanner.step]
        split
        · exact .inr (.inr (loose_expansion _ loose_empty shaped))
        · exact .inr (.inr shaped)

theorem Tail.scan (tail : Tail slot n s) {text : List Char} (harmless : ∀ c ∈ text, Harmless c) :
    Tail slot n (s.scan text) := by
  induction text generalizing s with
  | nil => exact tail
  | cons c text ih =>
    exact ih (tail.step (harmless c (List.mem_cons_self ..))) fun d member =>
      harmless d (List.mem_cons_of_mem c member)

/-- The quote and the semicolon after the value: whatever was going on, the value's words end here
or the text is never closed. -/
theorem Light.close {k : ℕ} (light : Light slot k s) (less : k < n) : Tail slot n ((s.step '\'').step ';') := by
  obtain ⟨m, fits, shaped⟩ := light
  have fewer : m < n := by omega
  have shorten {s : Scanner} {m : ℕ} (fewer : m < n) (shaped : Shaped slot (Shell.light m) (Shell.light m) s) :
      Shaped slot (short n) (short n) s :=
    shaped.mono _ (fun _ light => .inl (Nat.lt_of_le_of_lt light fewer))
      (fun _ light => .inl (Nat.lt_of_le_of_lt light fewer))
      (fun _ light => .inl (Nat.lt_of_le_of_lt light fewer))
      fun _ light => .inl (Nat.lt_of_le_of_lt light fewer)
  have ends {s : Scanner} (shaped : Shaped slot (short n) (short n) s) (mode : s.mode = .plain) :
      Tail slot n (s.step ';') := by
    simp only [Scanner.step, mode]
    exact .inr (.inr (shaped.operator (fun _ => id) fun _ => id))
  have opens {s : Scanner} (mode : s.mode = .single) : Tail slot n (s.step ';') :=
    .inl (doomed_step (by simp [Mode.doomed, mode]) (by decide) (.inr (by decide)))
  have stays {s : Scanner} (between : s.mode.between) : Tail slot n ((s.step '\'').step ';') :=
    .inl (doomed_step (doomed_step (by simp [Mode.doomed, between]) (by decide) (.inl between)) (by decide)
      (.inr (by decide)))
  obtain ⟨tokens, word, mode⟩ := s
  cases mode with
  | plain => exact opens rfl
  | single => exact ends (shorten fewer shaped) rfl
  | double => exact stays rfl
  | escape between =>
    cases between with
    | true => exact stays rfl
    | false => exact ends (shorten (by simp only [Mode.pending] at fits; omega) (light_literal '\'' shaped)) rfl
  | comment => exact .inr (.inl ⟨rfl, shorten fewer shaped⟩)
  | dollar between =>
    cases between with
    | true => exact stays rfl
    | false => exact opens rfl
  | name between source =>
    cases between with
    | true => exact stays rfl
    | false => exact opens rfl
  | capture between opened previous source =>
    cases between with
    | true => exact stays rfl
    | false =>
      have harmless : Harmless ';' := by simp [Harmless]
      cases closed : nest previous '\'' opened with
      | nil =>
        have read : (Scanner.mk tokens word (.capture false opened previous source)).step '\'' =
            { (Scanner.mk tokens word (.capture false opened previous source)).push
                (.expansion ('\'' :: source).reverse) with mode := .plain } := by
          simp only [Scanner.step, closed]; rfl
        rw [read]
        exact ends (shorten fewer (light_expansion _ shaped)) rfl
      | cons bracket rest =>
        have read : (Scanner.mk tokens word (.capture false opened previous source)).step '\'' =
            Scanner.mk tokens word (.capture false (bracket :: rest)
              (if previous = some '\\' then none else some '\'') ('\'' :: source)) := by
          simp only [Scanner.step, closed]
        rw [read]
        exact Tail.step (.inr (.inl ⟨rfl, shorten fewer shaped⟩)) harmless

/-- The tokens of a spoiled text: in place of the slot's word stands a shorter one or one with an
expansion, and the words after it that assign something are shorter than `n` or have one, too. -/
def Spoiled (slot : Slot) (n : ℕ) (tokens : List Token) : Prop :=
  ∃ own later,
    tokens = slot.tokens.reverse ++ .word (own ++ (slot.key.toList.map Piece.literal).reverse).reverse :: later ∧
    (short n).own own ∧ ∀ pieces, .word pieces.reverse ∈ later → (short n).other pieces

private theorem Shaped.spoiled {begun : Shape} (shaped : Shaped slot (short n) begun s)
    (own : ∀ pieces, begun.own pieces → (short n).own pieces)
    (other : ∀ pieces, begun.other pieces → (short n).other pieces) : Spoiled slot n s.flush.tokens.reverse := by
  rcases shaped.flush begun own other with
    ⟨first, _, word, _⟩ | ⟨first, later, tokens, kept, finished, _⟩
  · have flushed : s.flush.word = none := by cases word : s.word <;> simp [Scanner.flush, word]
    rw [flushed] at word
    contradiction
  · refine ⟨first, later.reverse, ?_, kept, fun pieces member => finished pieces (List.mem_reverse.mp member)⟩
    rw [tokens, List.reverse_append, List.reverse_cons, List.append_assoc, List.singleton_append]

theorem Tail.finish {tokens : List Token} (tail : Tail slot n s) (finished : s.finish = some tokens) :
    Spoiled slot n tokens := by
  obtain ⟨own, other⟩ := loose_short (n := n)
  rcases tail with doomed | ⟨held, shaped⟩ | shaped
  · rw [doomed_finish doomed] at finished
    contradiction
  · obtain ⟨before, word, mode⟩ := s
    cases mode with
    | comment => cases finished; exact shaped.spoiled (fun _ => id) fun _ => id
    | capture => contradiction
    | _ => contradiction
  · obtain ⟨before, word, mode⟩ := s
    cases mode with
    | plain | comment => cases finished; exact shaped.spoiled own other
    | escape between =>
      cases between with
      | true => contradiction
      | false => cases finished; exact (loose_literal (by decide) shaped).spoiled own other
    | dollar between =>
      cases between with
      | true => contradiction
      | false => cases finished; exact (loose_literal (by decide) shaped).spoiled own other
    | name between source =>
      cases between with
      | true => contradiction
      | false => cases finished; exact (loose_expansion _ loose_empty shaped).spoiled own other
    | _ => contradiction

/-- A text that ends within the value, where a C string does. -/
theorem Light.finish {k : ℕ} {tokens : List Token} (light : Light slot k s) (less : k < n)
    (finished : s.finish = some tokens) : Spoiled slot n tokens := by
  obtain ⟨m, fits, shaped⟩ := light
  have ends {s : Scanner} {m : ℕ} (fewer : m < n) (shaped : Shaped slot (Shell.light m) (Shell.light m) s) :
      Spoiled slot n s.flush.tokens.reverse := by
    have few (pieces : List Piece) (light : weight pieces ≤ m) : weight pieces < n := Nat.lt_of_le_of_lt light fewer
    exact (shaped.mono (short n) (fun _ light => .inl (few _ light)) (fun _ light => .inl (few _ light))
      (fun _ => id) fun _ => id).spoiled (fun _ light => .inl (few _ light)) fun _ light => .inl (few _ light)
  obtain ⟨before, word, mode⟩ := s
  cases mode with
  | plain | comment => cases finished; exact ends (by simp only [Mode.pending] at fits; omega) shaped
  | escape between | dollar between =>
    cases between with
    | true => contradiction
    | false =>
      cases finished
      exact ends (by simp only [Mode.pending] at fits; omega) (light_literal _ shaped)
  | name between source =>
    cases between with
    | true => contradiction
    | false =>
      cases finished
      exact ends (by simp only [Mode.pending] at fits; omega) (light_expansion _ shaped)
  | _ => contradiction

end Tail

private theorem weight_text (chars : List Char) : weight (chars.map .literal).reverse = chars.length := by
  rw [weight, List.countP_reverse, List.countP_map, List.countP_eq_length]
  exact fun _ _ => rfl

private theorem not_expands_text (chars : List Char) : ¬ Expands (chars.map .literal).reverse := by
  simp [Expands]

/-- A literal word of a spoiled text that assigns something is shorter than the value, or it is the
slot's word with a shorter value. -/
theorem Spoiled.text {slot : Slot} {n : ℕ} {tokens : List Token} {chars : List Char}
    (spoiled : Spoiled slot n tokens) (bare : ∀ pieces, .word pieces ∈ slot.tokens → Bare pieces)
    (member : Token.text chars ∈ tokens) (assigns : '=' ∈ chars) :
    chars.length < n ∨ ∃ value, chars = slot.key.toList ++ value ∧ value.length < n := by
  obtain ⟨own, later, rfl, first, others⟩ := spoiled
  rcases List.mem_append.mp member with before | member
  · exact absurd (bare _ (List.mem_reverse.mp before)) (by simpa [Bare] using assigns)
  rcases List.mem_cons.mp member with here | after
  · rw [Token.text, Token.word.injEq, List.reverse_append, List.reverse_reverse] at here
    obtain ⟨key, value, rfl, same, rest⟩ := List.map_eq_append_iff.mp here
    obtain rfl : key = slot.key.toList := (List.map_inj_right fun _ _ h => Piece.literal.inj h).mp same
    obtain rfl : own = (value.map .literal).reverse := by rw [rest, List.reverse_reverse]
    rcases first with light | expands
    · exact .inr ⟨value, rfl, by rwa [weight_text] at light⟩
    · exact absurd expands (not_expands_text value)
  · rw [Token.text, ← List.reverse_reverse (chars.map _)] at after
    rcases others _ after with light | expands | bare
    · exact .inl (by rwa [weight_text] at light)
    · exact absurd expands (not_expands_text chars)
    · exact absurd bare (by simpa [Bare] using assigns)

/-! ## The whole text -/

/-- A C string holds no NUL, and between single quotes no single quote can be written. -/
def Quotable (value : String) : Prop := '\'' ∉ value.toList ∧ '\x00' ∉ value.toList

instance (value : String) : Decidable (Quotable value) := inferInstanceAs (Decidable (_ ∧ _))

namespace Slot

variable (slot : Slot) {value : String}

private theorem takeWhile_nul {text : List Char} (nul : '\x00' ∉ text) : text.takeWhile (· ≠ '\x00') = text :=
  List.takeWhile_eq_self_iff.mpr fun c member => by simpa using ne_of_mem_of_not_mem member nul

/-- A quotable value: the commands before and after the slot's are the fixed ones, and the value
stands in its word character for character. -/
theorem read_clean (nulBefore : '\x00' ∉ slot.before.toList) (nulRest : '\x00' ∉ slot.rest.toList)
    (quotable : Quotable value) : read (slot.text value) = (tokenize slot.rest.toList).map fun rest =>
      commands (slot.tokens.reverse ++ [Token.text (slot.key.toList ++ value.toList)]) ++ commands rest := by
  have nul : '\x00' ∉ slot.chars value.toList := by simp [chars, quotable.2, nulBefore, nulRest]
  rw [read, toList_text, takeWhile_nul nul, tokenize_clean slot quotable.1, Option.map_map]
  congr 1
  funext rest
  rw [← commands_append, List.append_assoc]
  rfl

/-- The slot is the only place of its text where something is assigned, and no quotes follow it. -/
structure Sealed : Prop where
  bare : ∀ pieces, .word pieces ∈ slot.tokens → Bare pieces
  assigns : '=' ∈ slot.key.toList
  harmless : ∀ c ∈ slot.rest.toList, Harmless c
  nulBefore : '\x00' ∉ slot.before.toList
  nulRest : '\x00' ∉ slot.rest.toList

variable {slot}

/-- Any other value spoils the text. -/
theorem Sealed.read_spoiled (fixed : slot.Sealed) (dirty : ¬ Quotable value) {list : List (List Token)}
    (readable : read (slot.text value) = some list) :
    ∃ tokens, list = commands tokens ∧ Spoiled slot value.toList.length tokens := by
  obtain ⟨tokens, finished, rfl⟩ := Option.map_eq_some_iff.mp readable
  refine ⟨tokens, rfl, ?_⟩
  rw [toList_text] at finished
  rw [Quotable] at dirty
  generalize value.toList = value at dirty finished ⊢
  by_cases ends : '\x00' ∈ value
  · -- the text ends within the value
    obtain ⟨read, rest, rfl, clean⟩ := List.eq_append_cons_of_mem ends
    have truncated : (slot.chars (read ++ '\x00' :: rest)).takeWhile (· ≠ '\x00') = slot.before.toList ++ read := by
      rw [chars, List.append_assoc, ← List.append_assoc, List.cons_append,
        List.takeWhile_append_of_pos, List.takeWhile_cons_of_neg (by decide), List.append_nil]
      intro c member
      simpa using ne_of_mem_of_not_mem member (by simp [clean, fixed.nulBefore])
    rw [truncated, tokenize, scan_before] at finished
    by_cases quote : '\'' ∈ read
    · have positive := List.length_pos_of_mem quote
      exact (light_value slot quote).finish (by simp; omega) finished
    · rw [scan_single quote] at finished
      contradiction
  · have quote : '\'' ∈ value := by
      by_contra clean
      exact dirty ⟨clean, ends⟩
    have nul : '\x00' ∉ slot.chars value := by simp [chars, ends, fixed.nulBefore, fixed.nulRest]
    rw [takeWhile_nul nul, tokenize, chars, scan_before, scan_append, scan_cons, scan_cons] at finished
    have positive := List.length_pos_of_mem quote
    exact (((light_value slot quote).close (by omega)).scan fixed.harmless).finish finished

/-- The fixed commands with the value in its word are read exactly from the quotable values. -/
theorem Sealed.read_iff {rest : List Token} (fixed : slot.Sealed) (ends : tokenize slot.rest.toList = some rest) :
    read (slot.text value) =
      some (commands (slot.tokens.reverse ++ [Token.text (slot.key.toList ++ value.toList)]) ++ commands rest) ↔
        Quotable value := by
  constructor
  · intro readable
    by_contra dirty
    obtain ⟨tokens, same, spoiled⟩ := fixed.read_spoiled dirty readable
    have here : Token.text (slot.key.toList ++ value.toList) ∈
        slot.tokens.reverse ++ [Token.text (slot.key.toList ++ value.toList)] := by simp
    obtain ⟨command, run, member⟩ := mem_commands.mpr here
    have present : Token.text (slot.key.toList ++ value.toList) ∈ tokens :=
      mem_commands.mp ⟨command, same ▸ List.mem_append_left _ run, member⟩
    rcases spoiled.text fixed.bare present (List.mem_append_left _ fixed.assigns) with
      shorter | ⟨other, same, shorter⟩
    · rw [List.length_append] at shorter
      omega
    · rw [List.append_cancel_left same] at shorter
      exact absurd shorter (Nat.lt_irrefl _)
  · intro quotable
    rw [slot.read_clean fixed.nulBefore fixed.nulRest quotable, ends, Option.map_some]

end Slot

end Shell
