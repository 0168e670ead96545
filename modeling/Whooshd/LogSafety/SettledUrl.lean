import Whooshd.LogSafety.UrlText

set_option autoImplicit true

namespace Whooshd.LogSafety

/-- A part of a host is in lower case up to its zone. -/
theorem lower_before_zone {u : Unicode} {netloc host : List Char} (h : host <+: hostname u netloc) :
    u.lower (host.takeWhile (· ≠ '%')) = host.takeWhile (· ≠ '%') := by
  obtain ⟨k, rfl⟩ : ∃ k, host = (hostname u netloc).take k :=
    ⟨host.length, List.prefix_iff_eq_take.mp h⟩
  simp only [hostname]
  split
  · rw [List.take_nil, List.takeWhile_nil]
    exact u.lower_ascii [] rfl
  · next hne =>
    generalize (hostInfo netloc).1 = info
    have hlow : ∀ c ∈ (u.lower (info.takeWhile (· ≠ '%'))).take k, decide (c ≠ '%') = true := by
      intro c hc
      rw [decide_eq_true_eq]
      rintro rfl
      have hin := u.lower_mem _ _ (List.mem_of_mem_take hc) (by decide) (by decide)
      simpa using List.mem_takeWhile_imp hin
    have hzone : ∀ n, ((info.dropWhile (· ≠ '%')).take n).takeWhile (· ≠ '%') = [] := by
      intro n
      rcases dropWhile_cases (fun c => decide (c ≠ '%')) info with hdrop | ⟨c, rest, hdrop, hc⟩
      · rw [hdrop, List.take_nil, List.takeWhile_nil]
      · rw [hdrop]
        cases n with
        | zero => rfl
        | succ n => rw [List.take_succ_cons, List.takeWhile_cons, hc, if_neg Bool.false_ne_true]
    rw [List.take_append, List.takeWhile_append_of_pos hlow, hzone, List.append_nil, u.lower_take]

theorem hostInfo_plain {authority : List Char} (hat : '@' ∉ authority) (hopen : '[' ∉ authority) :
    hostInfo authority =
      (authority.takeWhile (· ≠ ':'), (authority.dropWhile (· ≠ ':')).drop 1) := by
  have hinfo : authority.rtakeWhile (· ≠ '@') = authority := by
    rw [List.rtakeWhile_eq_self_iff]
    intro c hc
    rw [decide_eq_true_eq]
    rintro rfl
    exact hat hc
  simp only [hostInfo, hinfo, if_neg hopen]

theorem hostname_plain {u : Unicode} {netloc authority : List Char} (hat : '@' ∉ authority)
    (hopen : '[' ∉ authority) (h : authority.takeWhile (· ≠ ':') <+: hostname u netloc) :
    hostname u authority = authority.takeWhile (· ≠ ':') := by
  simp only [hostname, hostInfo_plain hat hopen]
  split
  · next hnil => exact hnil.symm
  · rw [lower_before_zone h, List.takeWhile_append_dropWhile]

/-- A host alone, or a host and the number of a port, and no bracket. -/
structure IsPlainAuthority (authority : List Char) : Prop where
  opened : '[' ∉ authority
  closed : ']' ∉ authority
  host : authority.takeWhile (· ≠ ':') ≠ []
  port : authority.dropWhile (· ≠ ':') = [] ∨
    ∃ n ≤ 65535, authority.dropWhile (· ≠ ':') = ':' :: decimal n

/-- The URLs whose host and port, as far as there is room for them behind the scheme, have no
brackets around them and no colon but that of the port. -/
def IsSettledUrl (u : Unicode) (value : List Char) : Prop :=
  ∀ scheme netloc path port, IsParsed u value scheme netloc path port →
    IsPlainAuthority ((hostname u netloc ++ port).take (253 - scheme.length))

theorem portText_plain {authority : List Char} (hat : '@' ∉ authority) (hopen : '[' ∉ authority)
    {n : Nat} (hn : n ≤ 65535) (h : authority.dropWhile (· ≠ ':') = ':' :: decimal n) :
    portText authority = some (':' :: decimal n) := by
  have hne : decimal n ≠ [] := by
    rw [decimal_eq]
    exact Nat.toDigits_ne_nil
  have hall : (decimal n).all Char.isDigit = true :=
    List.all_eq_true.mpr fun c hc => decimal_isDigit hc
  have hnumber : (decimal n).foldl (fun n c => 10 * n + (c.toNat - '0'.toNat)) 0 = n := by
    rw [decimal_eq]
    exact Nat.ofDigitChars_ten_toDigits
  simp only [portText, hostInfo_plain hat hopen, h, List.drop_succ_cons, List.drop_zero, hne,
    if_false, hall, if_true, hnumber, hn]
  rfl

/-- A port that is read has no fewer characters than are shown of it, and as many only if it is
shown as it is. -/
theorem portText_read {authority port : List Char} (hat : '@' ∉ authority)
    (hopen : '[' ∉ authority) (h : portText authority = some port)
    (hlen : (authority.dropWhile (· ≠ ':')).length ≤ port.length) :
    authority.dropWhile (· ≠ ':') = port := by
  simp only [portText, hostInfo_plain hat hopen] at h
  rcases dropWhile_cases (fun c => decide (c ≠ ':')) authority with htail | ⟨c, digits, htail, hc⟩
  · rw [htail] at h ⊢
    cases h
    rfl
  · obtain rfl : c = ':' := by simpa using hc
    rw [htail, List.drop_succ_cons, List.drop_zero] at h
    rw [htail] at hlen ⊢
    split at h
    · cases h
      simp at hlen
    · next hne =>
      split at h
      · next hall =>
        split at h
        · cases h
          rcases decimal_ofDigitChars (List.all_eq_true.mp hall) hne with heq | hshort
          · exact congrArg (':' :: ·) heq.symm
          · have hlen' : digits.length ≤ (decimal (Nat.ofDigitChars 10 digits 0)).length :=
              Nat.le_of_succ_le_succ hlen
            omega
        · cases h
      · cases h

theorem readAuthority_plain {u : Unicode} {netloc shown : List Char}
    (hvalid : u.netlocValid shown = true) (hat : '@' ∉ shown)
    (hhost : shown.takeWhile (· ≠ ':') <+: hostname u netloc) (h : IsPlainAuthority shown) :
    readAuthority u shown = some shown := by
  have hbrackets : bracketsValid u shown = true := by
    rw [bracketsValid, if_neg h.opened, decide_eq_true_eq]
    exact h.closed
  have htext : portText shown = some (shown.dropWhile (· ≠ ':')) := by
    rcases h.port with hnil | ⟨n, hn, htail⟩
    · simp only [portText, hostInfo_plain hat h.opened, hnil, List.drop_nil, if_true]
    · rw [htail]
      exact portText_plain hat h.opened hn htail
  rw [readAuthority, hbrackets, hvalid, hostname_plain hat h.opened hhost, htext,
    Option.map_some, List.takeWhile_append_dropWhile, decide_eq_true h.host]
  rfl

/-- An authority in which no bracket is closed is plain if no less of it is read than is shown. -/
theorem IsPlainAuthority.of_read {u : Unicode} {netloc shown authority : List Char}
    (hat : '@' ∉ shown) (hbrackets : '[' ∈ shown → ']' ∉ shown)
    (hhost : shown.takeWhile (· ≠ ':') <+: hostname u netloc)
    (hread : readAuthority u shown = some authority)
    (hlen : shown.length ≤ authority.length) : IsPlainAuthority shown := by
  rw [readAuthority] at hread
  split at hread
  · next hcond =>
    rw [Bool.and_eq_true, Bool.and_eq_true, decide_eq_true_eq] at hcond
    obtain ⟨⟨hclosed, -⟩, hne⟩ := hcond
    rw [bracketsValid] at hclosed
    split at hclosed
    · next hopen =>
      rw [Bool.and_eq_true, decide_eq_true_eq] at hclosed
      exact absurd hclosed.1 (hbrackets hopen)
    · next hopen =>
      rw [hostname_plain hat hopen hhost] at hread hne
      obtain ⟨port, hport, rfl⟩ := Option.map_eq_some_iff.mp hread
      have hlonger : (shown.dropWhile (· ≠ ':')).length ≤ port.length := by
        have hsplit := congrArg List.length (List.takeWhile_append_dropWhile (p := (· ≠ ':'))
          (l := shown))
        rw [List.length_append] at hsplit hlen
        omega
      refine ⟨hopen, of_decide_eq_true hclosed, hne, ?_⟩
      rw [portText_read hat hopen hport hlonger]
      exact portText_cases hport
  · cases hread

/-- The host and the port are read back from what is shown of them exactly if they are plain. -/
theorem IsParsed.read_iff {u : Unicode} {value scheme netloc path port : List Char}
    (h : IsParsed u value scheme netloc path port) (room : Nat) (rest : List Char)
    (hroom : ((hostname u netloc ++ port).take room ++ rest).length ≤ room) :
    (∃ authority, readAuthority u ((hostname u netloc ++ port).take room) = some authority ∧
        (authority ++ rest).take room = (hostname u netloc ++ port).take room ++ rest) ↔
      IsPlainAuthority ((hostname u netloc ++ port).take room) := by
  have hhost := h.host_prefix room
  have hvalid : u.netlocValid ((hostname u netloc ++ port).take room) = true :=
    List.all_eq_true.mpr fun c hc =>
      List.all_eq_true.mp h.authority_valid c (List.mem_of_mem_take hc)
  obtain ⟨hat, hbrackets⟩ := h.authority_plain
  have hat : '@' ∉ (hostname u netloc ++ port).take room :=
    fun hin => hat (List.mem_of_mem_take hin)
  have hbrackets : '[' ∈ (hostname u netloc ++ port).take room →
      ']' ∉ (hostname u netloc ++ port).take room :=
    fun hin hin' => hbrackets (List.mem_of_mem_take hin) (List.mem_of_mem_take hin')
  generalize (hostname u netloc ++ port).take room = shown at *
  constructor
  · rintro ⟨authority, hread, hagain⟩
    apply IsPlainAuthority.of_read hat hbrackets hhost hread
    have hsize := congrArg List.length hagain
    simp only [List.length_take, List.length_append] at hsize
    omega
  · intro hplain
    exact ⟨shown, readAuthority_plain hvalid hat hhost hplain, List.take_of_length_le hroom⟩

theorem redacted_ne_url {scheme : List Char} (h : IsScheme scheme) (behind : List Char) (n : Nat) :
    redacted ≠ (scheme ++ behind).take (n + 1) := by
  cases hcases : scheme with
  | nil => exact absurd hcases h.ne
  | cons c scheme =>
    intro heq
    rw [List.cons_append, List.take_succ_cons, redacted, List.cons.injEq] at heq
    have hhead := h.head
    rw [hcases, ← heq.1] at hhead
    have hbracket : '<'.isAlpha = true := hhead
    exact absurd hbracket (by decide)

theorem safeUrl_unparsed {u : Unicode} {value : List Char}
    (h : ∀ scheme netloc path port, ¬ IsParsed u value scheme netloc path port) :
    safeUrl u value = redacted := by
  unfold safeUrl
  split
  · rfl
  · rename_i scheme netloc path hsplit
    by_cases hbare : scheme = [] ∨ hostname u netloc = []
    · rw [← decide_eq_true_eq (p := _ ∨ _), Bool.decide_or] at hbare
      simp only [hbare, if_true]
    · rw [not_or] at hbare
      cases hport : portText netloc with
      | none => simp only [ite_self]
      | some port => exact absurd ⟨hsplit, hbare.1, hbare.2, hport⟩ (h scheme netloc path port)

theorem IsParsed.shown_iff {u : Unicode} {value scheme netloc path port : List Char}
    (h : IsParsed u value scheme netloc path port) (room : Nat) :
    let shown := (shownParts u netloc path port).take room
    (∃ authority, readAuthority u (shown.takeWhile (· ≠ '/')) = some authority ∧
        (authority ++ shown.dropWhile (· ≠ '/')).take room = shown) ↔
      IsPlainAuthority ((hostname u netloc ++ port).take room) := by
  intro shown
  obtain ⟨-, htake, -⟩ := h.cut room
  have hsplit : shown.takeWhile (· ≠ '/') ++ shown.dropWhile (· ≠ '/') = shown :=
    List.takeWhile_append_dropWhile
  have hroom : (shown.takeWhile (· ≠ '/') ++ shown.dropWhile (· ≠ '/')).length ≤ room := by
    rw [hsplit]
    exact List.length_take_le room _
  have hiff := h.read_iff room (shown.dropWhile (· ≠ '/'))
  rw [← htake] at hiff ⊢
  rw [hsplit] at hiff
  exact hiff (hsplit ▸ hroom)

theorem safeUrl_settled (u : Unicode) (value : List Char) :
    safeUrl u (safeUrl u value) = safeUrl u value ↔ IsSettledUrl u value := by
  constructor
  · intro heq scheme netloc path port h
    obtain ⟨hscheme, -, -⟩ := h.parts
    apply (h.shown_iff (253 - scheme.length)).mp
    by_cases hlen : scheme.length ≤ 253
    · rw [h.safeUrl_eq, take_url hlen, h.safeUrl_again hlen] at heq
      cases hread : readAuthority u
          (((shownParts u netloc path port).take (253 - scheme.length)).takeWhile (· ≠ '/')) with
      | none =>
        simp only [hread] at heq
        have hne := redacted_ne_url hscheme (':' :: '/' :: '/' :: shownParts u netloc path port) 255
        rw [take_url hlen] at hne
        exact absurd heq hne
      | some authority =>
        simp only [hread] at heq
        refine ⟨authority, rfl, ?_⟩
        simpa using heq
    · rw [h.safeUrl_eq, safeUrl_long u hscheme (Nat.lt_of_not_le hlen)] at heq
      exact absurd heq (redacted_ne_url hscheme _ 255)
  · intro hsettled
    by_cases hparsed : ∃ scheme netloc path port, IsParsed u value scheme netloc path port
    · obtain ⟨scheme, netloc, path, port, h⟩ := hparsed
      have hplain := hsettled scheme netloc path port h
      have hlen : scheme.length ≤ 253 := by
        by_contra hlong
        have hroom : 253 - scheme.length = 0 := by omega
        rw [hroom, List.take_zero] at hplain
        exact hplain.host rfl
      obtain ⟨authority, hread, hagain⟩ := (h.shown_iff (253 - scheme.length)).mpr hplain
      rw [h.safeUrl_eq, take_url hlen, h.safeUrl_again hlen]
      simp only [hread, hagain]
    · have hredacted := @safeUrl_unparsed u value (by
        intro scheme netloc path port h
        exact hparsed ⟨scheme, netloc, path, port, h⟩)
      rw [hredacted, safeUrl_redacted]

end Whooshd.LogSafety
