import Mathlib.Data.List.Basic

set_option autoImplicit true

namespace Regex

/-- A token and the text between it and the token before it. -/
structure Found (τ : Type) where
  gap : List Char
  token : τ

/-- A reader looks at the character before a place and at the text from there. It returns a token
and how many characters the token has after its first one. -/
abbrev Reader (τ : Type) : Type := Option Char → List Char → Option (τ × Nat)

/-- The tokens of a text, found where they first start, and what follows the last of them. The
number is of characters that belong to the token before. -/
def scan (read : Reader τ) : Nat → Option Char → List Char → List Char →
    List (Found τ) × List Char
  | _, _, gap, [] => ([], gap)
  | n + 1, _, gap, c :: cs => scan read n (some c) gap cs
  | 0, last, gap, c :: cs =>
    match read last (c :: cs) with
    | some (token, n) =>
      let (found, tail) := scan read n (some c) [] cs
      (⟨gap, token⟩ :: found, tail)
    | none => scan read 0 (some c) (gap ++ [c]) cs

def tokens (read : Reader τ) (cs : List Char) : List (Found τ) × List Char :=
  scan read 0 none [] cs

theorem scan_none {read : Reader τ} {last : Option Char} {gap cs : List Char}
    (h : (scan read 0 last gap cs).1 = []) : (scan read 0 last gap cs).2 = gap ++ cs := by
  induction cs generalizing last gap with
  | nil => simp [scan]
  | cons c cs ih =>
    cases hread : read last (c :: cs) with
    | some found => simp [scan, hread] at h
    | none =>
      simp only [scan, hread] at h ⊢
      rw [ih h, List.append_assoc, List.singleton_append]

theorem scan_starts (read : Reader τ) (n : Nat) (last : Option Char) (gap cs : List Char) :
    (∃ more token found, (scan read n last gap cs).1 = ⟨gap ++ more, token⟩ :: found) ∨
      (scan read n last gap cs).1 = [] ∧ ∃ more, (scan read n last gap cs).2 = gap ++ more := by
  induction cs generalizing n last gap with
  | nil =>
    right
    cases n <;> exact ⟨rfl, [], (List.append_nil gap).symm⟩
  | cons c cs ih =>
    cases n with
    | succ n => exact ih n (some c) gap
    | zero =>
      cases hread : read last (c :: cs) with
      | some found =>
        left
        simp only [scan, hread]
        exact ⟨[], found.1, _, by rw [List.append_nil]⟩
      | none =>
        simp only [scan, hread]
        cases ih 0 (some c) (gap ++ [c]) with
        | inl hfound =>
          obtain ⟨more, token, found, h⟩ := hfound
          exact .inl ⟨c :: more, token, found, by rw [h, List.append_assoc]; rfl⟩
        | inr htail =>
          obtain ⟨hnone, more, h⟩ := htail
          exact .inr ⟨hnone, c :: more, by rw [h, List.append_assoc]; rfl⟩

theorem scan_blind {read : Reader τ} (h : ∀ last last' cs, read last cs = read last' cs)
    (n : Nat) (last last' : Option Char) (gap cs : List Char) :
    scan read n last gap cs = scan read n last' gap cs := by
  cases cs with
  | nil => cases n <;> rfl
  | cons c cs =>
    cases n with
    | zero => simp only [scan, h last last']
    | succ n => rfl

theorem scan_gap {read : Reader τ} (h : ∀ last last' cs, read last cs = read last' cs)
    {skipped : List Char} (hnone : ∀ c ∈ skipped, ∀ cs, read none (c :: cs) = none)
    (gap cs : List Char) :
    scan read 0 none gap (skipped ++ cs) = scan read 0 none (gap ++ skipped) cs := by
  induction skipped generalizing gap with
  | nil => rw [List.nil_append, List.append_nil]
  | cons c skipped ih =>
    have hc := hnone c List.mem_cons_self (skipped ++ cs)
    rw [List.cons_append, scan, hc]
    dsimp only
    rw [scan_blind h 0 (some c) none, ih fun d hd => hnone d (List.mem_cons_of_mem c hd),
      List.append_assoc, List.singleton_append]

theorem scan_skip {read : Reader τ} (h : ∀ last last' cs, read last cs = read last' cs)
    (token : List Char) (last : Option Char) (gap cs : List Char) :
    scan read token.length last gap (token ++ cs) = scan read 0 none gap cs := by
  induction token generalizing last with
  | nil => exact scan_blind h 0 last none gap cs
  | cons c token ih =>
    rw [List.cons_append, List.length_cons, scan]
    exact ih (some c)

/-- What holds of every token that is read holds of the tokens that are found. -/
theorem scan_tokens {read : Reader τ} {P : τ → Prop}
    (h : ∀ last cs token n, read last cs = some (token, n) → P token) {n : Nat}
    {last : Option Char} {gap cs : List Char} :
    ∀ f ∈ (scan read n last gap cs).1, P f.token := by
  induction cs generalizing n last gap with
  | nil => cases n <;> simp [scan]
  | cons c cs ih =>
    cases n with
    | succ n => exact ih
    | zero =>
      cases hread : read last (c :: cs) with
      | none =>
        simp only [scan, hread]
        exact ih
      | some found =>
        obtain ⟨token, m⟩ := found
        simp only [scan, hread, List.mem_cons]
        rintro f (rfl | hf)
        · exact h last (c :: cs) token m hread
        · exact ih f hf

/-- A text that is put together from gaps in which nothing starts and tokens that are read alike
before any text is taken apart into them. -/
theorem tokens_rebuild {read : Reader (List Char)}
    (h : ∀ last last' cs, read last cs = read last' cs) {quiet : Char → Prop}
    (hquiet : ∀ c, quiet c → ∀ cs, read none (c :: cs) = none) {found : List (Found (List Char))}
    (hfound : ∀ f ∈ found, (∀ c ∈ f.gap, quiet c) ∧ ∃ c token, f.token = c :: token ∧
      ∀ cs, read none (f.token ++ cs) = some (f.token, token.length))
    {tail : List Char} (htail : ∀ c ∈ tail, quiet c) :
    tokens read (found.flatMap (fun f => f.gap ++ f.token) ++ tail) = (found, tail) := by
  rw [tokens]
  induction found with
  | nil =>
    have hscan := scan_gap h (fun c hc => hquiet c (htail c hc)) [] []
    rw [List.append_nil, List.nil_append] at hscan
    rw [List.flatMap_nil, List.nil_append, hscan]
    rfl
  | cons f found ih =>
    obtain ⟨hgap, c, token, htoken, hread⟩ := hfound f List.mem_cons_self
    have hrest := ih fun g hg => hfound g (List.mem_cons_of_mem f hg)
    rw [List.flatMap_cons, List.append_assoc, List.append_assoc,
      scan_gap h (fun d hd => hquiet d (hgap d hd)), List.nil_append]
    rw [htoken] at hread ⊢
    simp only [List.cons_append] at hread ⊢
    rw [scan, hread]
    dsimp only
    rw [scan_skip h, hrest, ← htoken]

/-- A pattern with one capturing group. -/
inductive Pattern where
  | empty
  | one (p : Char → Bool)
  | seq (a b : Pattern)
  | alt (a b : Pattern)
  | star (a : Pattern)
  | group (a : Pattern)
  | boundary (word : Char → Bool)

/-- A place in a text: the character before it, what is left, and what the group has matched. -/
structure Place where
  last : Option Char
  rest : List Char
  group : Option (List Char)

/-- As many rounds as possible first, then fewer. A round that reads nothing is not taken. -/
def rounds (round : Place → (Place → Option β) → Option β) :
    Nat → Place → (Place → Option β) → Option β
  | 0, s, k => k s
  | n + 1, s, k =>
    (round s fun t => if t.rest.length < s.rest.length then rounds round n t k else none).or (k s)

/-- The first way, in the order of the backtracking, for the pattern to match here and for what
follows it to succeed. -/
def Pattern.run : Pattern → Place → (Place → Option β) → Option β
  | .empty, s, k => k s
  | .one p, s, k =>
    match s.rest with
    | [] => none
    | c :: cs => if p c then k { s with last := some c, rest := cs } else none
  | .seq a b, s, k => a.run s fun t => b.run t k
  | .alt a b, s, k => (a.run s k).or (b.run s k)
  | .star a, s, k => rounds a.run s.rest.length s k
  | .group a, s, k =>
    a.run s fun t => k { t with group := some (s.rest.take (s.rest.length - t.rest.length)) }
  | .boundary word, s, k => if s.last.any word != s.rest.head?.any word then k s else none

namespace Pattern

def opt (a : Pattern) : Pattern := alt a empty

def plus (a : Pattern) : Pattern := seq a (star a)

def many (p : Char → Bool) : Pattern := star (one p)

def all : List Pattern → Pattern
  | [] => empty
  | [a] => a
  | a :: as => seq a (all as)

def any : List Pattern → Pattern
  | [] => one fun _ => false
  | [a] => a
  | a :: as => alt a (any as)

def char (c : Char) : Pattern := one (· == c)

/-- The characters a letter of a pattern matches when case is ignored: the dotted and the dotless
i, the long s and the Kelvin sign are among them. -/
def ignoringCase (letter c : Char) : Bool :=
  c.toLower = letter.toLower ||
    letter.toLower = 'i' && (c.toNat = 0x130 || c.toNat = 0x131) ||
    letter.toLower = 's' && c.toNat = 0x17F || letter.toLower = 'k' && c.toNat = 0x212A

def word (s : String) : Pattern := all (s.toList.map fun c => one (ignoringCase c))

/-- The first match at one place: its group and what follows it. -/
def matchAt (a : Pattern) (last : Option Char) (cs : List Char) :
    Option (Option (List Char) × List Char) :=
  a.run ⟨last, cs, none⟩ fun s => some (s.group, s.rest)

/-- Whether `re.search` finds the pattern. -/
def occurs (a : Pattern) : Option Char → List Char → Bool
  | last, [] => (a.matchAt last []).isSome
  | last, c :: cs => (a.matchAt last (c :: cs)).isSome || occurs a (some c) cs

/-- The reader of the matches of a pattern that matches no empty text: it returns the group. -/
def reader (a : Pattern) : Reader (Option (List Char)) := fun last cs =>
  (a.matchAt last cs).map fun (caught, rest) => (caught, cs.length - rest.length - 1)

/-- `re.sub`, for a pattern that matches no empty text: each match becomes its group and what is
put behind it. -/
def sub (a : Pattern) (behind cs : List Char) : List Char :=
  let (found, tail) := tokens a.reader cs
  found.flatMap (fun f => f.gap ++ (f.token.getD [] ++ behind)) ++ tail

theorem sub_cases (a : Pattern) (behind cs : List Char) :
    a.sub behind cs = cs ∨ ∀ c ∈ behind, c ∈ a.sub behind cs := by
  cases hfound : (tokens a.reader cs).1 with
  | nil =>
    left
    have htail : (tokens a.reader cs).2 = [] ++ cs := scan_none hfound
    simp only [sub, hfound, htail, List.flatMap_nil, List.nil_append]
  | cons f found =>
    right
    intro c hc
    simp only [sub, hfound, List.flatMap_cons]
    exact List.mem_append_left _ (List.mem_append_left _
      (List.mem_append_right _ (List.mem_append_right _ hc)))

end Pattern

end Regex
