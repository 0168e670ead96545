import Whooshd.LogSafety.Sizes

set_option autoImplicit true

namespace Whooshd.LogSafety

/-- The schemes that `urlsplit` returns: in lower case already. -/
structure IsScheme (scheme : List Char) : Prop where
  head : scheme.head?.any Char.isAlpha = true
  chars : ∀ c ∈ scheme, isSchemeChar c = true
  lower : scheme.map Char.toLower = scheme

theorem IsScheme.ne {scheme : List Char} (h : IsScheme scheme) : scheme ≠ [] := by
  rintro rfl
  exact absurd h.head (by decide)

/-- A character that the host of a URL cannot hold. -/
def isDelimiter (c : Char) : Bool := endsNetloc c || isRemoved c

theorem toLower_schemeChar {c : Char} (h : isSchemeChar c = true) :
    isSchemeChar c.toLower = true := by
  cases Text.toLower_cases c with
  | inl heq => rwa [heq]
  | inr hletter =>
    have hlower := (Text.isLower_iff c.toLower).mpr hletter
    simp [isSchemeChar, Char.isAlphanum, Text.isAlpha_eq, hlower]

theorem toLower_alpha {c : Char} (h : c.isAlpha = true) : c.toLower.isAlpha = true := by
  cases Text.toLower_cases c with
  | inl heq => rwa [heq]
  | inr hletter =>
    have hlower := (Text.isLower_iff c.toLower).mpr hletter
    simp [Text.isAlpha_eq, hlower]

theorem splitScheme_scheme {url scheme rest : List Char} (h : splitScheme url = (scheme, rest))
    (hne : scheme ≠ []) : IsScheme scheme ∧ rest <:+ url := by
  simp only [splitScheme] at h
  split at h
  · rename_i rest' hdrop
    split at h
    · rename_i hcond
      rw [Prod.mk.injEq] at h
      obtain ⟨rfl, rfl⟩ := h
      rw [Bool.and_eq_true, List.all_eq_true] at hcond
      refine ⟨⟨?_, ?_, ?_⟩, ?_⟩
      · cases hbefore : url.takeWhile (· ≠ ':') with
        | nil =>
          rw [hbefore] at hne
          exact absurd rfl hne
        | cons c before =>
          rw [hbefore] at hcond
          exact toLower_alpha hcond.1
      · intro c hc
        obtain ⟨d, hd, rfl⟩ := List.mem_map.mp hc
        exact toLower_schemeChar (hcond.2 d hd)
      · rw [List.map_map]
        apply List.map_congr_left
        intro c _
        exact Text.toLower_toLower c
      · exact (List.suffix_cons ':' rest').trans (hdrop ▸ List.dropWhile_suffix _)
    · rw [Prod.mk.injEq] at h
      exact absurd h.1.symm hne
  · rw [Prod.mk.injEq] at h
    exact absurd h.1.symm hne

theorem splitNetloc_parts {url netloc rest : List Char} (h : splitNetloc url = (netloc, rest))
    (hne : netloc ≠ []) : (∀ c ∈ netloc, endsNetloc c = false ∧ c ∈ url) ∧
      (rest = [] ∨ ∃ c after, rest = c :: after ∧ endsNetloc c = true) := by
  unfold splitNetloc at h
  split at h
  · rename_i behind
    rw [Prod.mk.injEq] at h
    obtain ⟨rfl, rfl⟩ := h
    constructor
    · intro c hc
      have hends := List.mem_takeWhile_imp hc
      have hin : c ∈ behind := (List.takeWhile_prefix _).subset hc
      exact ⟨by simpa using hends, List.mem_cons_of_mem _ (List.mem_cons_of_mem _ hin)⟩
    · cases hdrop : behind.dropWhile (!endsNetloc ·) with
      | nil => exact .inl rfl
      | cons c after =>
        have hc := List.head_dropWhile_not (!endsNetloc ·) (l := behind) (by simp [hdrop])
        simp only [hdrop, List.head_cons] at hc
        exact .inr ⟨c, after, rfl, by simpa using hc⟩
  · rw [Prod.mk.injEq] at h
    exact absurd h.1.symm hne

theorem urlsplit_parts {u : Unicode} {value scheme netloc path : List Char}
    (h : urlsplit u value = some (scheme, netloc, path)) (hscheme : scheme ≠ [])
    (hnetloc : netloc ≠ []) :
    IsScheme scheme ∧ (∀ c ∈ netloc, isDelimiter c = false) ∧
      (path = [] ∨ ∃ rest, path = '/' :: rest) := by
  simp only [urlsplit] at h
  generalize hs : splitScheme ((value.dropWhile isControlOrSpace).filter (!isRemoved ·)) = s at h
  obtain ⟨scheme', url⟩ := s
  generalize hn : splitNetloc url = n at h
  obtain ⟨netloc', behind⟩ := n
  dsimp only at h hn
  split at h
  · rw [Option.some.injEq, Prod.mk.injEq, Prod.mk.injEq] at h
    obtain ⟨rfl, rfl, rfl⟩ := h
    obtain ⟨hscheme', hsuffix⟩ := splitScheme_scheme hs hscheme
    obtain ⟨hchars, hbehind⟩ := splitNetloc_parts hn hnetloc
    refine ⟨hscheme', ?_, ?_⟩
    · intro c hc
      obtain ⟨hends, hin⟩ := hchars c hc
      have hkept := (List.mem_filter.mp (hsuffix.subset hin)).2
      rw [Bool.not_eq_true'] at hkept
      rw [isDelimiter, hends, hkept, Bool.or_false]
    · rcases hbehind with rfl | ⟨c, after, rfl, hc⟩
      · exact .inl rfl
      · rw [endsNetloc, Bool.or_eq_true, Bool.or_eq_true, decide_eq_true_eq, decide_eq_true_eq,
          decide_eq_true_eq] at hc
        rcases hc with (rfl | rfl) | rfl
        · exact .inr ⟨_, rfl⟩
        · exact .inl rfl
        · exact .inl rfl
  · cases h

theorem urlsplit_valid {u : Unicode} {value scheme netloc path : List Char}
    (h : urlsplit u value = some (scheme, netloc, path)) : u.netlocValid netloc = true := by
  simp only [urlsplit] at h
  split at h
  · next hvalid =>
    rw [Option.some.injEq, Prod.mk.injEq, Prod.mk.injEq] at h
    rw [Bool.and_eq_true, h.2.1] at hvalid
    exact hvalid.2
  · cases h

theorem takeWhile_congr {p q : Char → Bool} {s : List Char} (h : ∀ c ∈ s, p c = q c) :
    s.takeWhile p = s.takeWhile q ∧ s.dropWhile p = s.dropWhile q := by
  induction s with
  | nil => exact ⟨rfl, rfl⟩
  | cons c s ih =>
    obtain ⟨htake, hdrop⟩ := ih fun d hd => h d (List.mem_cons_of_mem c hd)
    rw [List.takeWhile_cons, List.takeWhile_cons, List.dropWhile_cons, List.dropWhile_cons,
      h c List.mem_cons_self, htake, hdrop]
    exact ⟨rfl, rfl⟩

theorem takeWhile_prefix_append (p : Char → Bool) (s rest : List Char) :
    s.takeWhile p <+: (s ++ rest).takeWhile p := by
  rw [List.takeWhile_append]
  split
  · exact (List.takeWhile_prefix p).trans (List.prefix_append s _)
  · exact List.prefix_refl _

theorem dropWhile_cases (p : Char → Bool) (s : List Char) :
    s.dropWhile p = [] ∨ ∃ c rest, s.dropWhile p = c :: rest ∧ p c = false := by
  cases hdrop : s.dropWhile p with
  | nil => exact .inl rfl
  | cons c rest =>
    have hc := List.head_dropWhile_not p (l := s) (by simp [hdrop])
    simp only [hdrop, List.head_cons] at hc
    exact .inr ⟨c, rest, rfl, by simpa using hc⟩

theorem IsScheme.splitScheme {scheme : List Char} (h : IsScheme scheme) (rest : List Char) :
    splitScheme (scheme ++ ':' :: rest) = (scheme, rest) := by
  have hcolon : ∀ c ∈ scheme, decide (c ≠ ':') = true := by
    intro c hc
    rw [decide_eq_true_eq]
    rintro rfl
    exact absurd (h.chars _ hc) (by decide)
  have hall : scheme.all isSchemeChar = true := List.all_eq_true.mpr h.chars
  have htake : (scheme ++ ':' :: rest).takeWhile (· ≠ ':') = scheme := by
    rw [List.takeWhile_append_of_pos hcolon, List.takeWhile_cons, if_neg (by decide),
      List.append_nil]
  have hdrop : (scheme ++ ':' :: rest).dropWhile (· ≠ ':') = ':' :: rest := by
    rw [List.dropWhile_append_of_pos hcolon, List.dropWhile_cons, if_neg (by decide)]
  simp only [LogSafety.splitScheme, htake, hdrop, h.head, hall, Bool.and_self, if_true, h.lower]

theorem IsScheme.cleaned {scheme : List Char} (h : IsScheme scheme) (behind : List Char)
    (hbehind : ∀ c ∈ behind, isRemoved c = false) :
    ((scheme ++ behind).dropWhile isControlOrSpace).filter (!isRemoved ·) = scheme ++ behind := by
  have hdrop : (scheme ++ behind).dropWhile isControlOrSpace = scheme ++ behind := by
    cases hcases : scheme with
    | nil => exact absurd hcases h.ne
    | cons c scheme =>
      have hc : c.isAlpha = true := by
        have hhead := h.head
        rwa [hcases] at hhead
      rw [List.cons_append, List.dropWhile_cons, if_neg]
      intro hctl
      have hn := Text.isAlpha_toNat hc
      rw [isControlOrSpace, decide_eq_true_eq] at hctl
      omega
  rw [hdrop, List.filter_eq_self]
  intro c hc
  rw [Bool.not_eq_true']
  cases List.mem_append.mp hc with
  | inl hc =>
    have hchar := h.chars c hc
    rw [← Bool.not_eq_true]
    intro hremoved
    rw [isRemoved, Bool.or_eq_true, Bool.or_eq_true, decide_eq_true_eq, decide_eq_true_eq,
      decide_eq_true_eq] at hremoved
    rcases hremoved with (rfl | rfl) | rfl <;> exact absurd hchar (by decide)
  | inr hc => exact hbehind c hc

/-- A URL written from its parts is split into them. -/
theorem urlsplit_url (u : Unicode) {scheme rest : List Char} (hscheme : IsScheme scheme)
    (hrest : ∀ c ∈ rest, c = '/' ∨ isDelimiter c = false) :
    urlsplit u (scheme ++ ':' :: '/' :: '/' :: rest) =
      if bracketsValid u (rest.takeWhile (· ≠ '/')) && u.netlocValid (rest.takeWhile (· ≠ '/')) then
        some (scheme, rest.takeWhile (· ≠ '/'), rest.dropWhile (· ≠ '/'))
      else none := by
  have hurl := hscheme.cleaned (':' :: '/' :: '/' :: rest) (by
    intro c hc
    rw [List.mem_cons, List.mem_cons, List.mem_cons] at hc
    rcases hc with rfl | rfl | rfl | hc
    · decide
    · decide
    · decide
    · cases hrest c hc with
      | inl hslash => rw [hslash]; decide
      | inr hdelim =>
        rw [isDelimiter, Bool.or_eq_false_iff] at hdelim
        exact hdelim.2)
  have hnetloc : splitNetloc ('/' :: '/' :: rest) =
      (rest.takeWhile (· ≠ '/'), rest.dropWhile (· ≠ '/')) := by
    have hcongr := @takeWhile_congr (!endsNetloc ·) (· ≠ '/') rest (by
      intro c hc
      cases hrest c hc with
      | inl hslash => rw [hslash]; decide
      | inr hdelim =>
        have hne : c ≠ '/' := by
          rintro rfl
          exact absurd hdelim (by decide)
        rw [isDelimiter, Bool.or_eq_false_iff] at hdelim
        simp [hdelim.1, hne])
    rw [splitNetloc, hcongr.1, hcongr.2]
  have hpath : ((rest.dropWhile (· ≠ '/')).takeWhile (· ≠ '#')).takeWhile (· ≠ '?') =
      rest.dropWhile (· ≠ '/') := by
    have hmem : ∀ c ∈ rest.dropWhile (· ≠ '/'), c ≠ '#' ∧ c ≠ '?' := by
      intro c hc
      cases hrest c ((List.dropWhile_suffix _).subset hc) with
      | inl hslash => rw [hslash]; decide
      | inr hdelim => constructor <;> rintro rfl <;> exact absurd hdelim (by decide)
    have hhash : (rest.dropWhile (· ≠ '/')).takeWhile (· ≠ '#') = rest.dropWhile (· ≠ '/') := by
      rw [List.takeWhile_eq_self_iff]
      intro c hc
      exact decide_eq_true (hmem c hc).1
    rw [hhash, List.takeWhile_eq_self_iff]
    intro c hc
    exact decide_eq_true (hmem c hc).2
  simp only [urlsplit, hurl, hscheme.splitScheme, hnetloc, hpath]

/-- The host and the port that `urlsplit` reads in a network location, as a log shows them. -/
def readAuthority (u : Unicode) (authority : List Char) : Option (List Char) :=
  if bracketsValid u authority && u.netlocValid authority && hostname u authority ≠ [] then
    (portText authority).map (hostname u authority ++ ·)
  else none

theorem safeUrl_url (u : Unicode) {scheme rest : List Char} (hscheme : IsScheme scheme)
    (hrest : ∀ c ∈ rest, c = '/' ∨ isDelimiter c = false) :
    safeUrl u (scheme ++ ':' :: '/' :: '/' :: rest) =
      match readAuthority u (rest.takeWhile (· ≠ '/')) with
      | none => redacted
      | some authority =>
        (urlunsplit scheme authority (safePath (rest.dropWhile (· ≠ '/')))).take 256 := by
  rw [safeUrl, urlsplit_url u hscheme hrest]
  cases hvalid : bracketsValid u (rest.takeWhile (· ≠ '/')) &&
      u.netlocValid (rest.takeWhile (· ≠ '/')) with
  | false => simp only [readAuthority, hvalid, Bool.false_and, Bool.false_eq_true, if_false]
  | true =>
    by_cases hhost : hostname u (rest.takeWhile (· ≠ '/')) = []
    · simp only [readAuthority, hvalid, hhost, if_true, decide_true, Bool.or_true, ne_eq,
        not_true_eq_false, decide_false, Bool.and_false, Bool.false_eq_true, if_false]
    · cases hport : portText (rest.takeWhile (· ≠ '/')) <;>
        simp only [readAuthority, hvalid, hhost, hport, hscheme.ne, if_true, decide_false,
          Bool.or_false, Bool.false_eq_true, if_false, ne_eq, not_false_eq_true, decide_true,
          Bool.and_true, Option.map_none, Option.map_some]

theorem safeUrl_bare {u : Unicode} {text : List Char}
    (h : ∀ scheme netloc path, urlsplit u text = some (scheme, netloc, path) →
      scheme = [] ∨ netloc = []) : safeUrl u text = redacted := by
  unfold safeUrl
  split
  · rfl
  · rename_i scheme netloc path heq
    cases h scheme netloc path heq with
    | inl hscheme => simp only [hscheme, decide_true, Bool.true_or, if_true]
    | inr hnetloc =>
      have hhost : hostname u [] = [] := rfl
      simp only [hnetloc, hhost, decide_true, Bool.or_true, if_true]

theorem IsScheme.take {scheme : List Char} (h : IsScheme scheme) (n : Nat) :
    IsScheme (scheme.take (n + 1)) := by
  constructor
  · cases hcases : scheme with
    | nil => exact absurd hcases h.ne
    | cons c scheme =>
      have hhead := h.head
      rwa [hcases] at hhead
  · intro c hc
    exact h.chars c (List.mem_of_mem_take hc)
  · rw [List.map_take, h.lower]

theorem IsScheme.splitScheme_bare {scheme : List Char} (h : IsScheme scheme) :
    LogSafety.splitScheme scheme = ([], scheme) := by
  have hdrop : scheme.dropWhile (· ≠ ':') = [] := by
    rw [List.dropWhile_eq_nil_iff]
    intro c hc
    rw [decide_eq_true_eq]
    rintro rfl
    exact absurd (h.chars _ hc) (by decide)
  simp only [LogSafety.splitScheme, hdrop]

/-- A scheme that leaves no room for a network location is not shown again. -/
theorem safeUrl_long (u : Unicode) {scheme : List Char} (hscheme : IsScheme scheme)
    (hlong : 253 < scheme.length) (behind : List Char) :
    safeUrl u ((scheme ++ ':' :: '/' :: '/' :: behind).take 256) = redacted := by
  have htake := hscheme.take 255
  have htext : (scheme ++ ':' :: '/' :: '/' :: behind).take 256 = scheme.take 256 ++
      (':' :: '/' :: '/' :: behind).take (256 - scheme.length) := List.take_append
  apply safeUrl_bare
  intro scheme' netloc path h
  rw [htext] at h
  have hroom : 256 - scheme.length = 0 ∨ 256 - scheme.length = 1 ∨ 256 - scheme.length = 2 := by
    omega
  rcases hroom with hroom | hroom | hroom
  · have hclean := htake.cleaned [] (by simp)
    rw [hroom, List.take_zero] at h
    rw [List.append_nil] at h hclean
    simp only [urlsplit, hclean, htake.splitScheme_bare] at h
    split at h
    · rw [Option.some.injEq, Prod.mk.injEq] at h
      exact .inl h.1.symm
    · cases h
  · have hclean := htake.cleaned [':'] (by simp [isRemoved])
    rw [hroom] at h
    simp only [urlsplit, hclean, htake.splitScheme, splitNetloc, List.take_succ_cons,
      List.take_zero] at h
    split at h
    · rw [Option.some.injEq, Prod.mk.injEq, Prod.mk.injEq] at h
      exact .inr h.2.1.symm
    · cases h
  · have hclean := htake.cleaned [':', '/'] (by simp [isRemoved])
    rw [hroom] at h
    simp only [urlsplit, hclean, htake.splitScheme, splitNetloc, List.take_succ_cons,
      List.take_zero] at h
    split at h
    · rw [Option.some.injEq, Prod.mk.injEq, Prod.mk.injEq] at h
      exact .inr h.2.1.symm
    · cases h

theorem mem_of_isDelimiter {c : Char} (h : isDelimiter c = true) :
    c ∈ ['/', '?', '#', '\t', '\r', '\n'] := by
  simp only [isDelimiter, endsNetloc, isRemoved, Bool.or_eq_true, decide_eq_true_eq] at h
  simp only [List.mem_cons, List.not_mem_nil, or_false]
  tauto

theorem hostInfo_subset (netloc : List Char) : (hostInfo netloc).1 ⊆ netloc := by
  intro c hc
  have hinfo : netloc.rtakeWhile (· ≠ '@') ⊆ netloc := (List.rtakeWhile_suffix _ _).subset
  simp only [hostInfo] at hc
  split at hc
  · have hin := (List.takeWhile_prefix _).subset hc
    exact hinfo ((List.dropWhile_suffix _).subset ((List.drop_suffix _ _).subset hin))
  · exact hinfo ((List.takeWhile_prefix _).subset hc)

/-- What is not a letter of ASCII stands in a host as it stood in its network location. -/
theorem mem_hostInfo {u : Unicode} {netloc : List Char} {c : Char} (hc : c ∈ hostname u netloc)
    (hascii : c.toNat < 128) (halpha : c.isAlpha = false) : c ∈ (hostInfo netloc).1 := by
  simp only [hostname] at hc
  split at hc
  · exact absurd hc List.not_mem_nil
  · cases List.mem_append.mp hc with
    | inl hc => exact (List.takeWhile_prefix _).subset (u.lower_mem _ c hc hascii halpha)
    | inr hc => exact (List.dropWhile_suffix _).subset hc

theorem hostname_chars {u : Unicode} {netloc : List Char}
    (h : ∀ c ∈ netloc, isDelimiter c = false) : ∀ c ∈ hostname u netloc, isDelimiter c = false := by
  intro c hc
  cases hdelim : isDelimiter c with
  | false => rfl
  | true =>
    have hplain : ∀ d ∈ ['/', '?', '#', '\t', '\r', '\n'],
        d.toNat < 128 ∧ d.isAlpha = false := by simp
    obtain ⟨hascii, halpha⟩ := hplain c (mem_of_isDelimiter hdelim)
    rw [← hdelim]
    exact h c (hostInfo_subset netloc (mem_hostInfo hc hascii halpha))

theorem portText_cases {netloc port : List Char} (h : portText netloc = some port) :
    port = [] ∨ ∃ n ≤ 65535, port = ':' :: decimal n := by
  simp only [portText] at h
  split at h
  · rw [Option.some.injEq] at h
    exact .inl h.symm
  · split at h
    · split at h
      · next hle =>
        rw [Option.some.injEq] at h
        exact .inr ⟨_, hle, h.symm⟩
      · cases h
    · cases h

theorem decimal_isDigit {n : Nat} {c : Char} (hc : c ∈ decimal n) : c.isDigit = true := by
  rw [decimal_eq] at hc
  exact Nat.isDigit_of_mem_toDigits (by decide) (by decide) hc

theorem portText_chars {netloc port : List Char} (h : portText netloc = some port) :
    ∀ c ∈ port, c ∉ ['/', '?', '#', '\t', '\r', '\n', '@', '[', ']'] := by
  have hplain : ∀ d ∈ ['/', '?', '#', '\t', '\r', '\n', '@', '[', ']'],
      d ≠ ':' ∧ d.isDigit = false := by simp
  intro c hc hin
  obtain ⟨hcolon, hdigit⟩ := hplain c hin
  rcases portText_cases h with rfl | ⟨n, -, rfl⟩
  · cases hc
  · rcases List.mem_cons.mp hc with rfl | hc
    · exact hcolon rfl
    · exact absurd (hdigit.symm.trans (decimal_isDigit hc)) Bool.false_ne_true

theorem safePath_cut {path : List Char} (h : path = [] ∨ ∃ rest, path = '/' :: rest) (n : Nat) :
    ((safePath path).take n = [] ∨ ∃ rest, (safePath path).take n = '/' :: rest) ∧
      safePath ((safePath path).take n) = (safePath path).take n ∧
      ∀ c ∈ (safePath path).take n, c = '/' ∨ isDelimiter c = false := by
  by_cases hsafe : (path.length ≤ 128 && path.all isPathChar) = true
  · have heq : safePath path = path := if_pos hsafe
    rw [Bool.and_eq_true, decide_eq_true_eq, List.all_eq_true] at hsafe
    rw [heq]
    refine ⟨?_, ?_, ?_⟩
    · rcases h with rfl | ⟨rest, rfl⟩
      · exact .inl List.take_nil
      · cases n with
        | zero => exact .inl rfl
        | succ n => exact .inr ⟨rest.take n, rfl⟩
    · rw [safePath, if_pos]
      rw [Bool.and_eq_true, decide_eq_true_eq, List.all_eq_true]
      refine ⟨?_, fun c hc => hsafe.2 c (List.mem_of_mem_take hc)⟩
      exact (List.length_take_le' n path).trans hsafe.1
    · intro c hc
      have hchar := hsafe.2 c (List.mem_of_mem_take hc)
      cases hdelim : isDelimiter c with
      | false => exact .inr rfl
      | true =>
        left
        have hmem := mem_of_isDelimiter hdelim
        simp only [List.mem_cons, List.not_mem_nil, or_false] at hmem
        rcases hmem with rfl | rfl | rfl | rfl | rfl | rfl
        · rfl
        all_goals exact absurd hchar (by decide)
  · have heq : safePath path = [] := if_neg hsafe
    rw [heq, List.take_nil]
    exact ⟨.inl rfl, rfl, fun c hc => absurd hc List.not_mem_nil⟩

theorem urlunsplit_eq (scheme netloc : List Char) {path : List Char}
    (h : path = [] ∨ ∃ rest, path = '/' :: rest) :
    urlunsplit scheme netloc path = scheme ++ ':' :: '/' :: '/' :: (netloc ++ path) := by
  rcases h with rfl | ⟨rest, rfl⟩
  · rfl
  · rfl

theorem take_url {scheme : List Char} (h : scheme.length ≤ 253) (behind : List Char) :
    (scheme ++ ':' :: '/' :: '/' :: behind).take 256 =
      scheme ++ ':' :: '/' :: '/' :: behind.take (253 - scheme.length) := by
  rw [List.take_append, List.take_of_length_le (by omega)]
  have hroom : 256 - scheme.length = 253 - scheme.length + 1 + 1 + 1 := by omega
  rw [hroom, List.take_succ_cons, List.take_succ_cons, List.take_succ_cons]

theorem safeUrl_redacted (u : Unicode) : safeUrl u redacted = redacted := by
  apply safeUrl_bare
  intro scheme netloc path h
  have hsplit : splitScheme ((redacted.dropWhile isControlOrSpace).filter (!isRemoved ·)) =
      ([], redacted) := by decide
  simp only [urlsplit, hsplit] at h
  split at h
  · rw [Option.some.injEq, Prod.mk.injEq] at h
    exact .inl h.1.symm
  · cases h

/-- The parts of a URL that are shown. -/
structure IsParsed (u : Unicode) (value scheme netloc path port : List Char) : Prop where
  split : urlsplit u value = some (scheme, netloc, path)
  scheme_ne : scheme ≠ []
  host_ne : hostname u netloc ≠ []
  port : portText netloc = some port

/-- What is shown behind the scheme, before it is cut. -/
def shownParts (u : Unicode) (netloc path port : List Char) : List Char :=
  hostname u netloc ++ port ++ safePath path

namespace IsParsed

variable {u : Unicode} {value scheme netloc path port : List Char}

theorem parts (h : IsParsed u value scheme netloc path port) :
    IsScheme scheme ∧ (∀ c ∈ netloc, isDelimiter c = false) ∧
      (path = [] ∨ ∃ rest, path = '/' :: rest) := by
  apply urlsplit_parts h.split h.scheme_ne
  intro hnil
  exact h.host_ne (by rw [hnil]; rfl)

theorem safeUrl_eq (h : IsParsed u value scheme netloc path port) :
    safeUrl u value =
      (scheme ++ ':' :: '/' :: '/' :: shownParts u netloc path port).take 256 := by
  obtain ⟨-, -, hpath⟩ := h.parts
  have hcut := (safePath_cut hpath (safePath path).length).1
  rw [List.take_length] at hcut
  rw [safeUrl, h.split]
  simp only [h.scheme_ne, h.host_ne, h.port, decide_false, Bool.or_false, Bool.false_eq_true,
    if_false]
  rw [urlunsplit_eq _ _ hcut, shownParts]

theorem authority_chars (h : IsParsed u value scheme netloc path port) :
    ∀ c ∈ hostname u netloc ++ port, isDelimiter c = false := by
  obtain ⟨-, hnetloc, -⟩ := h.parts
  intro c hc
  cases List.mem_append.mp hc with
  | inl hc => exact hostname_chars hnetloc c hc
  | inr hc =>
    cases hdelim : isDelimiter c with
    | false => rfl
    | true =>
      have hmem := mem_of_isDelimiter hdelim
      exact absurd (List.mem_append_left ['@', '[', ']'] hmem) (portText_chars h.port c hc)

/-- The host and the port are what stands before the first slash, however much is shown. -/
theorem cut (h : IsParsed u value scheme netloc path port) (room : Nat) :
    let shown := (shownParts u netloc path port).take room
    (∀ c ∈ shown, c = '/' ∨ isDelimiter c = false) ∧
      shown.takeWhile (· ≠ '/') = (hostname u netloc ++ port).take room ∧
      ∃ n, shown.dropWhile (· ≠ '/') = (safePath path).take n := by
  obtain ⟨-, -, hpath⟩ := h.parts
  have hauthority := h.authority_chars
  obtain ⟨hstart, -, hchars⟩ :=
    safePath_cut hpath (room - (hostname u netloc ++ port).length)
  have hslash : ∀ c ∈ (hostname u netloc ++ port).take room, decide (c ≠ '/') = true := by
    intro c hc
    rw [decide_eq_true_eq]
    rintro rfl
    exact absurd (hauthority _ (List.mem_of_mem_take hc)) (by decide)
  dsimp only
  rw [shownParts, List.take_append]
  refine ⟨?_, ?_, room - (hostname u netloc ++ port).length, ?_⟩
  · intro c hc
    cases List.mem_append.mp hc with
    | inl hc => exact .inr (hauthority c (List.mem_of_mem_take hc))
    | inr hc => exact hchars c hc
  · rw [List.takeWhile_append_of_pos hslash]
    rcases hstart with hnil | ⟨rest, hrest⟩
    · rw [hnil, List.takeWhile_nil, List.append_nil]
    · rw [hrest, List.takeWhile_cons, if_neg (by decide), List.append_nil]
  · rw [List.dropWhile_append_of_pos hslash]
    rcases hstart with hnil | ⟨rest, hrest⟩
    · rw [hnil]
      rfl
    · rw [hrest, List.dropWhile_cons, if_neg (by decide)]

theorem safeUrl_again (h : IsParsed u value scheme netloc path port)
    (hlen : scheme.length ≤ 253) :
    let shown := (shownParts u netloc path port).take (253 - scheme.length)
    safeUrl u (scheme ++ ':' :: '/' :: '/' :: shown) =
      match readAuthority u (shown.takeWhile (· ≠ '/')) with
      | none => redacted
      | some authority => scheme ++ ':' :: '/' :: '/' ::
          (authority ++ shown.dropWhile (· ≠ '/')).take (253 - scheme.length) := by
  intro shown
  obtain ⟨hscheme, -, hpath⟩ := h.parts
  obtain ⟨hchars, -, n, hdrop⟩ := h.cut (253 - scheme.length)
  obtain ⟨hstart, hsafe, -⟩ := safePath_cut hpath n
  rw [safeUrl_url u hscheme hchars]
  cases readAuthority u (shown.takeWhile (· ≠ '/')) with
  | none => rfl
  | some authority =>
    simp only [shown, hdrop, hsafe]
    rw [urlunsplit_eq _ _ hstart, take_url hlen]

theorem authority_plain (h : IsParsed u value scheme netloc path port) :
    '@' ∉ hostname u netloc ++ port ∧
      ('[' ∈ hostname u netloc ++ port → ']' ∉ hostname u netloc ++ port) := by
  have hport := portText_chars h.port
  have hinfo : '@' ∉ netloc.rtakeWhile (· ≠ '@') := by
    intro hin
    simpa using List.mem_rtakeWhile_imp hin
  have hhost : '@' ∉ (hostInfo netloc).1 ∧
      ('[' ∈ (hostInfo netloc).1 → ']' ∉ (hostInfo netloc).1) := by
    simp only [hostInfo]
    split
    · constructor
      · intro hin
        have hin := (List.takeWhile_prefix _).subset hin
        exact hinfo ((List.dropWhile_suffix _).subset ((List.drop_suffix _ _).subset hin))
      · intro _ hin
        simpa using List.mem_takeWhile_imp hin
    · next hopen =>
      exact ⟨fun hin => hinfo ((List.takeWhile_prefix _).subset hin),
        fun hin => absurd ((List.takeWhile_prefix _).subset hin) hopen⟩
  have hmem : ∀ c ∈ ['@', '[', ']'], c ∈ hostname u netloc ++ port → c ∈ (hostInfo netloc).1 := by
    intro c hc hin
    have hcases : c.toNat < 128 ∧ c.isAlpha = false := by
      revert c
      simp
    cases List.mem_append.mp hin with
    | inl hin => exact mem_hostInfo hin hcases.1 hcases.2
    | inr hin =>
      exact absurd (List.mem_append_right ['/', '?', '#', '\t', '\r', '\n'] hc) (hport c hin)
  exact ⟨fun hin => hhost.1 (hmem _ (by simp) hin),
    fun hopen hclose => hhost.2 (hmem _ (by simp) hopen) (hmem _ (by simp) hclose)⟩

theorem authority_valid (h : IsParsed u value scheme netloc path port) :
    (hostname u netloc ++ port).all u.netlocChar = true := by
  have hnetloc : netloc.all u.netlocChar = true := urlsplit_valid h.split
  rw [List.all_append, Bool.and_eq_true]
  constructor
  · have hinfo : ∀ c ∈ (hostInfo netloc).1, u.netlocChar c = true :=
      fun c hc => List.all_eq_true.mp hnetloc c (hostInfo_subset netloc hc)
    simp only [hostname]
    split
    · rfl
    · rw [List.all_append, Bool.and_eq_true]
      constructor
      · apply u.netlocChar_lower
        exact List.all_eq_true.mpr fun c hc => hinfo c ((List.takeWhile_prefix _).subset hc)
      · exact List.all_eq_true.mpr fun c hc => hinfo c ((List.dropWhile_suffix _).subset hc)
  · rw [List.all_eq_true]
    intro c hc
    apply u.netlocChar_ascii
    rcases portText_cases h.port with rfl | ⟨n, -, rfl⟩
    · cases hc
    · rcases List.mem_cons.mp hc with rfl | hc
      · decide
      · exact Text.isAlphanum_lt (by simp [Char.isAlphanum, decimal_isDigit hc])

theorem host_prefix (h : IsParsed u value scheme netloc path port) (room : Nat) :
    ((hostname u netloc ++ port).take room).takeWhile (· ≠ ':') <+: hostname u netloc := by
  have hcut := takeWhile_prefix_append (· ≠ ':') ((hostname u netloc ++ port).take room)
    ((hostname u netloc ++ port).drop room)
  rw [List.take_append_drop] at hcut
  apply hcut.trans
  have hport : port.takeWhile (· ≠ ':') = [] := by
    rcases portText_cases h.port with rfl | ⟨n, -, rfl⟩
    · rfl
    · rw [List.takeWhile_cons, if_neg (by decide)]
  rw [List.takeWhile_append, hport, List.append_nil]
  split
  · exact List.prefix_refl _
  · exact List.takeWhile_prefix _

end IsParsed

end Whooshd.LogSafety
