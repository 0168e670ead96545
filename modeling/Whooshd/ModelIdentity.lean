import Whooshd.Library.Cut
import Whooshd.Library.Text

set_option autoImplicit true

namespace Whooshd

/-- `str.lower`. What a letter becomes depends on the letters around it, but neither a slash nor a
tilde is a letter or joins two of them. -/
structure Lowering where
  lower : List Char → List Char
  lower_ascii : ∀ s, (∀ c ∈ s, c.toNat < 128) → lower s = s.map Char.toLower
  lower_nil : ∀ s, lower s = [] → s = []
  lower_seam : ∀ a b c, c = '/' ∨ c = '~' → lower (a ++ c :: b) = lower a ++ c :: lower b
  lower_mem : ∀ s c, c = '/' ∨ c = '~' → c ∈ lower s → c ∈ s
  /-- No letter becomes a dot. -/
  lower_dots : ∀ s, (∀ c ∈ lower s, c = '.') → s = lower s

/-- The lower case of a text whose letters are those of ASCII. -/
def Lowering.ascii : Lowering where
  lower s := s.map Char.toLower
  lower_ascii _ _ := rfl
  lower_nil _ h := List.map_eq_nil_iff.mp h
  lower_seam a b c hc := by
    rw [List.map_append, List.map_cons]
    cases hc with
    | inl hc => rw [hc]; rfl
    | inr hc => rw [hc]; rfl
  lower_mem s c hc h := by
    obtain ⟨d, hd, hlow⟩ := List.mem_map.mp h
    have hsym : d.toLower = d := by
      apply Text.toLower_symbol
      rw [hlow]
      cases hc with
      | inl hc => rw [hc]; decide
      | inr hc => rw [hc]; decide
    rw [← hlow, hsym]
    exact hd
  lower_dots s h := by
    have hid : s.map Char.toLower = s.map id := by
      apply List.map_congr_left
      intro c hc
      apply Text.toLower_symbol
      rw [h _ (List.mem_map_of_mem hc)]
      decide
    rw [hid, List.map_id]

namespace ModelIdentity

/-- `"models--"` -/
def cacheMark : List Char := ['m', 'o', 'd', 'e', 'l', 's', '-', '-']

/-- `"snapshots"` -/
def snapshotDirectory : List Char := ['s', 'n', 'a', 'p', 's', 'h', 'o', 't', 's']

/-- `"/snapshots/"` -/
def snapshots : List Char := '/' :: (snapshotDirectory ++ ['/'])

/-- `"/blobs/"` -/
def blobs : List Char := ['/', 'b', 'l', 'o', 'b', 's', '/']

/-- `text.strip()` -/
def strip (s : List Char) : List Char := Text.trimChars Text.isSpace s

/-- `text.rsplit("/", 1)[-1]` -/
def lastSegment (text : List Char) : List Char := text.rtakeWhile (· != '/')

/-- `_SNAPSHOT_REVISION_RE.sub("", text)`: the expression takes every character but a slash, so
it matches at the last segment or nowhere. -/
def dropRevision (text : List Char) : List Char :=
  let location := text.rdropWhile (· != '/')
  if lastSegment text ≠ [] ∧ snapshots.isSuffixOf location then
    location.take (location.length - snapshots.length)
  else text

/-- `text.startswith(("/", "./", "../", "~"))` -/
def isPath (text : List Char) : Bool :=
  ['/'].isPrefixOf text || ['.', '/'].isPrefixOf text || ['.', '.', '/'].isPrefixOf text ||
    ['~'].isPrefixOf text

/-- `_canonical_model_identity`, once the revision is off. -/
def canonicalText (low : Lowering) (text : List Char) : Option (List Char) × List Char :=
  match Cut.afterLast cacheMark text with
  | some tail =>
    let head := tail.takeWhile (· != '/')
    let (org, sep, name) := Cut.partition ['-', '-'] head
    if sep ≠ [] ∧ org ≠ [] ∧ name ≠ [] then
      (some (low.lower org ++ '/' :: low.lower name), low.lower name)
    else (none, low.lower head)
  | none =>
    if isPath text then (none, low.lower (lastSegment text))
    else if '/' ∈ text then (some (low.lower text), low.lower (lastSegment text))
    else (none, low.lower text)

/-- `value.strip().rstrip("/")` -/
def trimmed (value : List Char) : List Char := (strip value).rdropWhile (· == '/')

/-- `_canonical_model_identity` -/
def canonical (low : Lowering) (value : List Char) : Option (List Char) × List Char :=
  if trimmed value = [] then (none, []) else canonicalText low (dropRevision (trimmed value))

/-- Whether Python takes an optional text as true. -/
def isTruthy : Option (List Char) → Bool
  | none => false
  | some text => !text.isEmpty

/-- `model_identity_matches` -/
def Matches (low : Lowering) (profileModelId candidate : List Char) : Bool :=
  let (leftRepo, leftName) := canonical low profileModelId
  let (rightRepo, rightName) := canonical low candidate
  if leftName.isEmpty || rightName.isEmpty then false
  else if isTruthy leftRepo && isTruthy rightRepo then leftRepo == rightRepo
  else if isTruthy leftRepo || isTruthy rightRepo then false
  else leftName == rightName

theorem ne_slash {b : List Char} (hb : '/' ∉ b) : ∀ c ∈ b, (c != '/') = true := by
  intro c hc
  exact bne_iff_ne.mpr fun heq => hb (heq ▸ hc)

theorem lastSegment_append {b : List Char} (hb : '/' ∉ b) (a : List Char) :
    lastSegment (a ++ '/' :: b) = b :=
  Cut.rtakeWhile_last rfl (ne_slash hb) a

theorem location_append {b : List Char} (hb : '/' ∉ b) (a : List Char) :
    (a ++ '/' :: b).rdropWhile (· != '/') = a ++ ['/'] :=
  Cut.rdropWhile_last rfl (ne_slash hb) a

theorem dropRevision_snapshot {r : List Char} (hr : '/' ∉ r) (hne : r ≠ []) (a : List Char) :
    dropRevision (a ++ (snapshots ++ r)) = a := by
  have htext : a ++ (snapshots ++ r) = (a ++ '/' :: snapshotDirectory) ++ '/' :: r := by
    simp [snapshots]
  have hloc : (a ++ '/' :: snapshotDirectory) ++ ['/'] = a ++ snapshots := by simp [snapshots]
  have hsuf : snapshots.isSuffixOf (a ++ snapshots) = true := by
    rw [List.isSuffixOf_iff_suffix]
    exact List.suffix_append a snapshots
  have hlen : (a ++ snapshots).length - snapshots.length = a.length := by
    rw [List.length_append, Nat.add_sub_cancel]
  rw [htext]
  simp only [dropRevision, lastSegment_append hr, location_append hr, hloc, hsuf, ne_eq, hne,
    not_false_eq_true, and_self, if_true, hlen, List.take_left]

theorem dropRevision_keep {b : List Char} (hb : '/' ∉ b) {a : List Char}
    (h : b = [] ∨ ¬ '/' :: snapshotDirectory <:+ a) :
    dropRevision (a ++ '/' :: b) = a ++ '/' :: b := by
  cases h with
  | inl hnil =>
    have hlast : lastSegment (a ++ '/' :: b) = [] := by rw [lastSegment_append hb, hnil]
    simp only [dropRevision, hlast, ne_eq, not_true_eq_false, false_and, if_false]
  | inr ha =>
    have hsuf : ¬ snapshots.isSuffixOf (a ++ ['/']) = true := by
      rw [List.isSuffixOf_iff_suffix, snapshots, ← List.cons_append]
      intro h
      exact ha (List.suffix_append_self_iff.mp h)
    simp only [dropRevision, location_append hb, hsuf, Bool.false_eq_true, and_false, if_false]

/-- Below a directory of another name only the path under it can lose a revision. -/
theorem dropRevision_below {dir s a : List Char} (hdir : '/' ∉ dir)
    (hname : dir ≠ snapshotDirectory) (hs : s = [] → ¬ '/' :: snapshotDirectory <:+ a)
    (hslash : s = [] ∨ ∃ rest, s = '/' :: rest) :
    ∃ s', s' <+: s ∧ dropRevision (a ++ '/' :: dir ++ s) = a ++ '/' :: dir ++ s' := by
  rcases hslash with hnil | ⟨rest, hrest⟩
  · exact ⟨[], List.nil_prefix, by
      rw [hnil, List.append_nil]
      exact dropRevision_keep hdir (.inr (hs hnil))⟩
  · obtain ⟨c, b, hcut, hb⟩ := Cut.exists_last (hrest ▸ List.mem_cons_self : '/' ∈ s)
    rw [hcut, ← List.append_assoc]
    by_cases hb' : b = [] ∨ ¬ '/' :: snapshotDirectory <:+ a ++ '/' :: dir ++ c
    · exact ⟨c ++ '/' :: b, List.prefix_rfl, by
        rw [← List.append_assoc]
        exact dropRevision_keep hb hb'⟩
    · rw [not_or, not_not] at hb'
      obtain ⟨hne, x, hx⟩ := hb'
      have hsnap : '/' ∉ snapshotDirectory := by decide
      cases c with
      | nil =>
        rw [List.append_nil] at hx
        exact absurd (Cut.last_unique hx hsnap hdir).2.symm hname
      | cons d c =>
        have hd : d = '/' := by
          rw [hrest, List.cons_append, List.cons.injEq] at hcut
          exact hcut.1.symm
        obtain ⟨c₁, c₂, hc, hc₂⟩ := Cut.exists_last (hd ▸ List.mem_cons_self : '/' ∈ d :: c)
        rw [hc, ← List.append_assoc] at hx
        obtain ⟨-, hc₂eq⟩ := Cut.last_unique hx hsnap hc₂
        refine ⟨c₁, ?_, ?_⟩
        · rw [hc, List.append_assoc]
          exact List.prefix_append c₁ _
        · have htext : a ++ '/' :: dir ++ (d :: c) ++ '/' :: b =
              (a ++ '/' :: dir ++ c₁) ++ (snapshots ++ b) := by
            rw [hc, ← hc₂eq]
            simp [snapshots]
          rw [htext]
          exact dropRevision_snapshot hb hne _

/-- A repository identity: two names, neither with a slash or a double dash. -/
structure Repository where
  org : List Char
  name : List Char
  org_ne : org ≠ []
  name_ne : name ≠ []
  org_slash : '/' ∉ org
  name_slash : '/' ∉ name
  org_dashes : ¬ ['-', '-'] <:+: org
  name_dashes : ¬ ['-', '-'] <:+: name

namespace Repository

/-- `org/name` -/
def id (m : Repository) : List Char := m.org ++ '/' :: m.name

/-- `models--org--name` -/
def directory (m : Repository) : List Char := cacheMark ++ (m.org ++ (['-', '-'] ++ m.name))

/-- `P/models--org--name` -/
def under (m : Repository) (P : List Char) : List Char := P ++ '/' :: m.directory

/-- Written without padding, and not the way a path is written. -/
structure Plain (m : Repository) : Prop where
  unpadded : strip m.id = m.id
  named : isPath m.id = false

/-- The directory's name shows where the owner ends. -/
structure Legible (m : Repository) : Prop where
  noMark : ¬ ['m', 'o', 'd', 'e', 'l', 's'] <:+ m.org
  noDash : ¬ ['-'] <:+ m.org

end Repository

theorem cacheMark_not_infix {m : Repository} (h : m.Legible) :
    ¬ cacheMark <:+: m.org ++ (['-', '-'] ++ m.name) := by
  rintro ⟨u, v, huv⟩
  have hcut : (u ++ ['m', 'o', 'd', 'e', 'l', 's']) ++ (['-', '-'] ++ v) =
      m.org ++ (['-', '-'] ++ m.name) := by
    rw [← huv]
    simp [cacheMark]
  rw [List.append_eq_append_iff] at hcut
  obtain ⟨mid, horg, htail⟩ | ⟨mid, horg, htail⟩ := hcut
  · cases mid with
    | nil =>
      rw [List.append_nil] at horg
      exact h.noMark (horg ▸ List.suffix_append u _)
    | cons c mid =>
      simp only [List.cons_append, List.nil_append, List.cons.injEq] at htail
      obtain ⟨rfl, htail⟩ := htail
      cases mid with
      | nil => exact h.noDash (horg ▸ List.suffix_append _ _)
      | cons d mid =>
        rw [List.cons_append, List.cons.injEq] at htail
        obtain ⟨rfl, -⟩ := htail
        exact m.org_dashes
          ⟨u ++ ['m', 'o', 'd', 'e', 'l', 's'], mid, by rw [horg]; simp⟩
  · cases mid with
    | nil =>
      rw [List.append_nil] at horg
      exact h.noMark (horg ▸ List.suffix_append u _)
    | cons c mid =>
      simp only [List.cons_append, List.nil_append, List.cons.injEq] at htail
      obtain ⟨rfl, htail⟩ := htail
      cases mid with
      | nil =>
        have hlast := congrArg List.getLast? horg
        simp at hlast
      | cons d mid =>
        rw [List.cons_append, List.cons.injEq] at htail
        exact m.name_dashes ⟨mid, v, by rw [htail.2]; simp⟩

theorem afterLast_directory {m : Repository} (h : m.Legible) {s : List Char}
    (hmark : ¬ cacheMark <:+: s) (hslash : s = [] ∨ ∃ rest, s = '/' :: rest) (a : List Char) :
    Cut.afterLast cacheMark (a ++ (m.directory ++ s)) =
      some (m.org ++ (['-', '-'] ++ m.name) ++ s) := by
  rw [Repository.directory, List.append_assoc]
  apply Cut.afterLast_append (by decide)
  intro hin
  have hbody : cacheMark <:+: m.org ++ (['-', '-'] ++ m.name) ++ s := by
    simpa [cacheMark, List.infix_cons_iff, List.cons_prefix_cons] using hin
  rcases hslash with rfl | ⟨rest, rfl⟩
  · rw [List.append_nil] at hbody
    exact cacheMark_not_infix h hbody
  · cases Cut.infix_of_infix_append (by decide) hbody with
    | inl hin => exact cacheMark_not_infix h hin
    | inr hin => exact hmark (List.infix_cons hin)

theorem canonicalText_directory (low : Lowering) {m : Repository} (h : m.Legible) {s : List Char}
    (hmark : ¬ cacheMark <:+: s) (hslash : s = [] ∨ ∃ rest, s = '/' :: rest) (a : List Char) :
    canonicalText low (a ++ (m.directory ++ s)) = (some (low.lower m.id), low.lower m.name) := by
  have hbody : '/' ∉ m.org ++ (['-', '-'] ++ m.name) := by
    simp [m.org_slash, m.name_slash]
  have hhead : (m.org ++ (['-', '-'] ++ m.name) ++ s).takeWhile (· != '/') =
      m.org ++ (['-', '-'] ++ m.name) := by
    rw [List.takeWhile_append_of_pos (ne_slash hbody)]
    rcases hslash with rfl | ⟨rest, rfl⟩
    · rw [List.takeWhile_nil, List.append_nil]
    · rw [List.takeWhile_cons, if_neg (by decide), List.append_nil]
  have hdashes : ¬ ['-', '-'] <:+: m.org ++ ['-', '-'].dropLast := by
    rw [show ['-', '-'].dropLast = ['-'] from rfl, List.infix_concat_iff, not_or]
    exact ⟨fun hend => h.noDash (List.suffix_append_self_iff.mp hend), m.org_dashes⟩
  have hpart := Cut.partition_append (by decide) hdashes m.name
  simp only [canonicalText, afterLast_directory h hmark hslash a, hhead, hpart, ne_eq,
    m.org_ne, m.name_ne, not_false_eq_true, and_self, List.cons_ne_nil, if_true,
    Repository.id, low.lower_seam _ _ '/' (.inl rfl)]

/-- What is left of the path under a directory once the text is trimmed. -/
def trimmedBelow (s : List Char) : List Char :=
  (s.rdropWhile Text.isSpace).rdropWhile (· == '/')

theorem Repository.Plain.last {m : Repository} (h : m.Plain) :
    ∃ a z, m.name = a ++ [z] ∧ Text.isSpace z = false := by
  have hdrop : m.id.rdropWhile Text.isSpace = m.id := by
    have hidem := List.rdropWhile_idempotent Text.isSpace (m.id.dropWhile Text.isSpace)
    have hstrip : (m.id.dropWhile Text.isSpace).rdropWhile Text.isSpace = m.id := h.unpadded
    rwa [hstrip] at hidem
  refine ⟨m.name.dropLast, m.name.getLast m.name_ne,
    (List.dropLast_concat_getLast m.name_ne).symm, ?_⟩
  rw [List.rdropWhile_eq_self_iff] at hdrop
  have hlast := hdrop (List.append_ne_nil_of_right_ne_nil _ (List.cons_ne_nil _ _))
  rw [Bool.not_eq_true] at hlast
  simpa only [Repository.id, List.getLast_append_of_ne_nil _ (List.cons_ne_nil _ _),
    List.getLast_cons m.name_ne] using hlast

theorem trimmed_under {m : Repository} (h : m.Plain) (P s : List Char) :
    trimmed (m.under P ++ s) = m.under (P.dropWhile Text.isSpace) ++ trimmedBelow s := by
  obtain ⟨a, z, hname, hz⟩ := h.last
  have hslash : (z == '/') = false := by
    rw [beq_eq_false_iff_ne]
    intro heq
    exact m.name_slash (by rw [hname, heq]; exact List.mem_append_right _ List.mem_cons_self)
  have hunder (Q t : List Char) : m.under Q ++ t =
      (Q ++ '/' :: (cacheMark ++ (m.org ++ (['-', '-'] ++ a)))) ++ z :: t := by
    simp [Repository.under, Repository.directory, hname]
  have hdrop : (m.under P ++ s).dropWhile Text.isSpace =
      m.under (P.dropWhile Text.isSpace) ++ s := by
    rw [Repository.under, List.append_assoc, List.cons_append, Cut.dropWhile_append rfl]
    simp [Repository.under]
  rw [trimmed, strip, Text.trimChars, hdrop, hunder, Cut.rdropWhile_append hz,
    Cut.rdropWhile_append (p := (· == '/')) hslash,
hunder, trimmedBelow]

/-- What stands under a directory: nothing, or a slash and a path. -/
def Below (s : List Char) : Prop := s = [] ∨ ∃ rest, s = '/' :: rest

theorem Below.of_prefix {s t : List Char} (h : Below s) (hp : t <+: s) : Below t := by
  cases t with
  | nil => exact .inl rfl
  | cons c t =>
    rcases h with rfl | ⟨rest, rfl⟩
    · exact absurd (List.prefix_nil.mp hp) (List.cons_ne_nil c t)
    · rw [List.cons_prefix_cons] at hp
      exact .inr ⟨t, by rw [hp.1]⟩

theorem trimmedBelow_le (s : List Char) : trimmedBelow s <+: s :=
  (List.rdropWhile_prefix _ _).trans (List.rdropWhile_prefix _ _)

theorem trimmedBelow_append {c : Char} (hspace : Text.isSpace c = false)
    (hslash : (c == '/') = false) (a b : List Char) :
    trimmedBelow (a ++ c :: b) = a ++ c :: trimmedBelow b := by
  rw [trimmedBelow, Cut.rdropWhile_append hspace,
    Cut.rdropWhile_append (p := (· == '/')) hslash, trimmedBelow]

theorem directory_slash (m : Repository) : '/' ∉ m.directory := by
  simp [Repository.directory, cacheMark, m.org_slash, m.name_slash]

theorem under_ne (m : Repository) (P s : List Char) : m.under P ++ s ≠ [] := by
  simp [Repository.under]

theorem canonical_under (low : Lowering) {m : Repository} (h : m.Plain) (hlegible : m.Legible)
    {P s : List Char} (hmark : ¬ cacheMark <:+: s) (hs : Below s)
    (hP : '/' :: snapshotDirectory <:+ P → trimmedBelow s ≠ []) :
    canonical low (m.under P ++ s) = (some (low.lower m.id), low.lower m.name) := by
  have hname : m.directory ≠ snapshotDirectory := by
    intro heq
    have hhead := congrArg List.head? heq
    simp [Repository.directory, cacheMark, snapshotDirectory] at hhead
  have hend : trimmedBelow s = [] →
      ¬ '/' :: snapshotDirectory <:+ P.dropWhile Text.isSpace := by
    intro hnil hsuf
    exact hP (hsuf.trans (List.dropWhile_suffix _)) hnil
  have hbelow := hs.of_prefix (trimmedBelow_le s)
  obtain ⟨s', hs', hdrop⟩ := dropRevision_below (directory_slash m) hname hend hbelow
  have hmark' : ¬ cacheMark <:+: s' := fun hin =>
    hmark (hin.trans (hs'.trans (trimmedBelow_le s)).isInfix)
  have htext := canonicalText_directory low hlegible hmark' (hbelow.of_prefix hs')
    (P.dropWhile Text.isSpace ++ ['/'])
  rw [canonical, trimmed_under h, if_neg (under_ne m _ _), Repository.under, hdrop, ← htext]
  simp

theorem canonical_snapshot (low : Lowering) {m : Repository} (h : m.Plain) (hlegible : m.Legible)
    (P : List Char) {r : List Char} (hr : '/' ∉ r) (hne : r.rdropWhile Text.isSpace ≠ []) :
    canonical low (m.under P ++ (snapshots ++ r)) = (some (low.lower m.id), low.lower m.name) := by
  have hr' : '/' ∉ r.rdropWhile Text.isSpace := fun hin =>
    hr ((List.rdropWhile_prefix _ _).subset hin)
  have hslash : trimmedBelow ('/' :: r) = '/' :: r.rdropWhile Text.isSpace := by
    have hspace : ('/' :: r).rdropWhile Text.isSpace = '/' :: r.rdropWhile Text.isSpace :=
      Cut.rdropWhile_append rfl [] r
    rw [trimmedBelow, hspace, List.rdropWhile_eq_self_iff]
    intro hcons heq
    rw [List.getLast_cons hne, beq_iff_eq] at heq
    exact hr' (heq ▸ List.getLast_mem hne)
  have hbelow : trimmedBelow (snapshots ++ r) = snapshots ++ r.rdropWhile Text.isSpace := by
    calc trimmedBelow (snapshots ++ r)
        = trimmedBelow (['/', 's', 'n', 'a', 'p', 's', 'h', 'o', 't'] ++ 's' :: ('/' :: r)) := rfl
      _ = ['/', 's', 'n', 'a', 'p', 's', 'h', 'o', 't'] ++ 's' :: trimmedBelow ('/' :: r) :=
        trimmedBelow_append rfl rfl _ _
      _ = snapshots ++ r.rdropWhile Text.isSpace := by rw [hslash]; rfl
  have htext := canonicalText_directory low hlegible (s := []) (by decide) (.inl rfl)
    (P.dropWhile Text.isSpace ++ ['/'])
  rw [canonical, trimmed_under h, if_neg (under_ne m _ _), hbelow,
    dropRevision_snapshot hr' hne, ← htext]
  simp [Repository.under]

theorem id_count (m : Repository) : m.id.count '/' = 1 := by
  rw [Repository.id, List.count_append, List.count_cons_self,
    List.count_eq_zero.mpr m.org_slash, List.count_eq_zero.mpr m.name_slash]

theorem dropRevision_id {m : Repository} {t : List Char} (ht : t <:+: m.id) :
    dropRevision t = t := by
  have hsuf : ¬ snapshots.isSuffixOf (t.rdropWhile (· != '/')) = true := by
    rw [List.isSuffixOf_iff_suffix]
    intro hsuf
    have hin := hsuf.isInfix.trans ((List.rdropWhile_prefix _ t).isInfix.trans ht)
    have hcount := hin.sublist.count_le '/'
    rw [id_count m] at hcount
    exact absurd hcount (by decide)
  simp only [dropRevision, hsuf, Bool.false_eq_true, and_false, if_false]

theorem afterLast_id {m : Repository} {t : List Char} (ht : t <:+: m.id) :
    Cut.afterLast cacheMark t = none := by
  apply Cut.afterLast_none
  intro hin
  have hdashes : ['-', '-'] <:+: cacheMark := ⟨['m', 'o', 'd', 'e', 'l', 's'], [], rfl⟩
  cases Cut.infix_of_infix_append (by decide) (hin.trans ht) with
  | inl h => exact m.org_dashes (hdashes.trans h)
  | inr h => exact m.name_dashes (hdashes.trans h)

theorem trimmed_id (m : Repository) : trimmed m.id <:+: m.id :=
  (List.rdropWhile_prefix _ _).isInfix.trans
    ((List.rdropWhile_prefix _ _).isInfix.trans (List.dropWhile_suffix _).isInfix)

theorem canonical_repository (low : Lowering) (m : Repository) :
    canonical low m.id =
      if isPath (trimmed m.id) then (none, low.lower (lastSegment (trimmed m.id)))
      else if '/' ∈ trimmed m.id then
        (some (low.lower (trimmed m.id)), low.lower (lastSegment (trimmed m.id)))
      else (none, low.lower (trimmed m.id)) := by
  have ht := trimmed_id m
  by_cases hnil : trimmed m.id = []
  · have hlow : low.lower [] = [] := low.lower_ascii [] (by simp)
    simp [canonical, hnil, isPath, hlow]
  · simp only [canonical, hnil, if_false, dropRevision_id ht, canonicalText, afterLast_id ht]

theorem rdropWhile_slash {b : List Char} (hne : b ≠ []) (hb : '/' ∉ b) (a : List Char) :
    (a ++ b).rdropWhile (· == '/') = a ++ b := by
  rw [List.rdropWhile_eq_self_iff]
  intro hcons heq
  rw [List.getLast_append_of_ne_nil _ hne, beq_iff_eq] at heq
  exact hb (heq ▸ List.getLast_mem hne)

theorem Repository.Plain.trimmed_eq {m : Repository} (h : m.Plain) : trimmed m.id = m.id := by
  rw [trimmed, h.unpadded, Repository.id, ← List.singleton_append, ← List.append_assoc]
  exact rdropWhile_slash m.name_ne m.name_slash _

theorem canonical_id (low : Lowering) {m : Repository} (h : m.Plain) :
    canonical low m.id = (some (low.lower m.id), low.lower m.name) := by
  have hslash : '/' ∈ m.id := List.mem_append_right _ List.mem_cons_self
  rw [canonical_repository, h.trimmed_eq, h.named, if_neg Bool.false_ne_true, if_pos hslash,
    Repository.id, lastSegment_append m.name_slash]

/-- What two identities are compared by: the repository where there is one, else the name. -/
def key : Option (List Char) × List Char → List Char ⊕ List Char
  | (some (c :: repo), _) => .inl (c :: repo)
  | (some [], name) => .inr name
  | (none, name) => .inr name

theorem matches_key (low : Lowering) (a b : List Char) :
    Matches low a b = true ↔ (canonical low a).2 ≠ [] ∧ (canonical low b).2 ≠ [] ∧
      key (canonical low a) = key (canonical low b) := by
  unfold Matches
  obtain ⟨leftRepo, leftName⟩ := canonical low a
  obtain ⟨rightRepo, rightName⟩ := canonical low b
  rcases leftRepo with _ | _ | ⟨c, left⟩ <;> rcases rightRepo with _ | _ | ⟨d, right⟩ <;>
    simp [key, isTruthy, and_assoc]

/-- A name with a repository matches the names of that repository and no other. -/
theorem matches_iff {low : Lowering} {a b r k : List Char} (ha : canonical low a = (some r, k))
    (hr : r ≠ []) (hk : k ≠ []) :
    Matches low a b = true ↔ (canonical low b).1 = some r ∧ (canonical low b).2 ≠ [] := by
  rw [matches_key, ha]
  obtain ⟨repo, name⟩ := canonical low b
  cases r with
  | nil => exact absurd rfl hr
  | cons c r =>
    rcases repo with _ | _ | ⟨d, repo⟩
    · simp [key, hk]
    · simp [key, hk]
    · simp only [key, ne_eq, hk, not_false_eq_true, true_and, Sum.inl.injEq, Option.some.injEq,
        and_comm, eq_comm]

theorem matches_symm (low : Lowering) (a b : List Char) (h : Matches low a b = true) :
    Matches low b a = true := by
  rw [matches_key] at h ⊢
  exact ⟨h.2.1, h.1, h.2.2.symm⟩

theorem matches_trans (low : Lowering) (a b c : List Char) (hab : Matches low a b = true)
    (hbc : Matches low b c = true) : Matches low a c = true := by
  rw [matches_key] at hab hbc ⊢
  exact ⟨hab.1, hbc.2.1, hab.2.2.trans hbc.2.2⟩

theorem lower_cut (low : Lowering) {c : Char} (hc : c = '/' ∨ c = '~') {s x y : List Char}
    (h : low.lower s = x ++ c :: y) (hx : c ∉ x) :
    ∃ a b, s = a ++ c :: b ∧ c ∉ a ∧ low.lower a = x ∧ low.lower b = y := by
  have hin : c ∈ s := low.lower_mem s c hc (h ▸ List.mem_append_right _ List.mem_cons_self)
  obtain ⟨a, b, rfl, ha⟩ := List.eq_append_cons_of_mem hin
  rw [low.lower_seam a b c hc] at h
  have hla : c ∉ low.lower a := fun hmem => ha (low.lower_mem a c hc hmem)
  obtain ⟨hxa, hyb⟩ := Cut.first_unique h hla hx
  exact ⟨a, b, rfl, ha, hxa, hyb⟩

/-- The owners a path is written with. -/
def Rooted (a : List Char) : Prop :=
  a = [] ∨ a = ['.'] ∨ a = ['.', '.'] ∨ ∃ rest, a = '~' :: rest

theorem isPath_cut {a : List Char} (ha : '/' ∉ a) (b : List Char) :
    isPath (a ++ '/' :: b) = true ↔ Rooted a := by
  rcases a with _ | ⟨c, _ | ⟨d, _ | ⟨e, a⟩⟩⟩
  · simp [isPath, Rooted]
  · have hc : '/' ≠ c := fun heq => ha (heq ▸ List.mem_cons_self)
    simp [isPath, Rooted, hc]
    grind
  · have hc : '/' ≠ c := fun heq => ha (heq ▸ List.mem_cons_self)
    have hd : '/' ≠ d := fun heq => ha (heq ▸ List.mem_cons_of_mem _ List.mem_cons_self)
    simp [isPath, Rooted, hc, hd]
    grind
  · have hc : '/' ≠ c := fun heq => ha (heq ▸ List.mem_cons_self)
    have hd : '/' ≠ d := fun heq => ha (heq ▸ List.mem_cons_of_mem _ List.mem_cons_self)
    have he : '/' ≠ e := fun heq =>
      ha (heq ▸ List.mem_cons_of_mem _ (List.mem_cons_of_mem _ List.mem_cons_self))
    simp [isPath, Rooted, hc, hd, he]
    grind

theorem Rooted.of_lower (low : Lowering) {a b : List Char} (h : low.lower a = low.lower b)
    (ha : Rooted a) : Rooted b := by
  rcases ha with rfl | rfl | rfl | ⟨rest, rfl⟩
  · left
    rw [low.lower_ascii [] (by simp)] at h
    exact low.lower_nil b h.symm
  · right; left
    have hdot : low.lower b = ['.'] := by
      rw [← h, low.lower_ascii ['.'] (by simp)]
      rfl
    rw [low.lower_dots b (by simp [hdot]), hdot]
  · right; right; left
    have hdots : low.lower b = ['.', '.'] := by
      rw [← h, low.lower_ascii ['.', '.'] (by simp)]
      rfl
    rw [low.lower_dots b (by simp [hdots]), hdots]
  · right; right; right
    have htilde := low.lower_seam [] rest '~' (.inr rfl)
    rw [List.nil_append, low.lower_ascii [] (by simp)] at htilde
    obtain ⟨x, y, rfl, -, hx, -⟩ := lower_cut low (.inr rfl) (h.symm.trans htilde) (by simp)
    rw [low.lower_nil x hx]
    exact ⟨y, rfl⟩

theorem lower_ne (low : Lowering) {s : List Char} (hs : s ≠ []) : low.lower s ≠ [] :=
  mt (low.lower_nil s) hs

theorem trimmed_of_slash {m : Repository} (h : '/' ∈ trimmed m.id) :
    trimmed m.id = strip m.id := by
  have hsplit : trimmed m.id ++ (strip m.id).rtakeWhile (· == '/') = strip m.id :=
    List.rdropWhile_append_rtakeWhile
  cases hrest : (strip m.id).rtakeWhile (· == '/') with
  | nil => rw [hrest, List.append_nil] at hsplit; exact hsplit
  | cons c rest =>
    have hc : (c == '/') = true :=
      List.mem_rtakeWhile_imp (p := (· == '/')) (hrest ▸ List.mem_cons_self)
    have hin : strip m.id <:+: m.id :=
      (List.rdropWhile_prefix _ _).isInfix.trans (List.dropWhile_suffix _).isInfix
    have hcount := hin.sublist.count_le '/'
    rw [id_count, ← hsplit, hrest, beq_iff_eq.mp hc, List.count_append,
      List.count_cons_self] at hcount
    have hpos := List.count_pos_iff.mpr h
    omega

theorem matches_id_iff (low : Lowering) {m : Repository} (h : m.Plain) (other : Repository) :
    Matches low m.id other.id = true ↔ low.lower (strip other.id) = low.lower m.id := by
  have hid : m.id ≠ [] := List.append_ne_nil_of_right_ne_nil _ (List.cons_ne_nil _ _)
  rw [matches_iff (canonical_id low h) (lower_ne low hid) (lower_ne low m.name_ne),
    canonical_repository]
  constructor
  · rintro ⟨hrepo, -⟩
    split at hrepo
    · cases hrepo
    · split at hrepo
      · rename_i hslash
        rw [trimmed_of_slash hslash] at hrepo
        exact Option.some.inj hrepo
      · cases hrepo
  · intro heq
    have hseam := low.lower_seam m.org m.name '/' (.inl rfl)
    have horg : '/' ∉ low.lower m.org := fun hin =>
      m.org_slash (low.lower_mem m.org '/' (.inl rfl) hin)
    obtain ⟨a, b, hcut, ha, hla, hlb⟩ := lower_cut low (.inl rfl) (heq.trans hseam) horg
    have hin : strip other.id <:+: other.id :=
      (List.rdropWhile_prefix _ _).isInfix.trans (List.dropWhile_suffix _).isInfix
    have hb : '/' ∉ b := by
      have hcount := hin.sublist.count_le '/'
      rw [id_count, hcut, List.count_append, List.count_cons_self] at hcount
      rw [← List.count_eq_zero]
      omega
    have hbne : b ≠ [] := by
      rintro rfl
      rw [low.lower_ascii [] (by simp)] at hlb
      exact lower_ne low m.name_ne hlb.symm
    have htrim : trimmed other.id = a ++ '/' :: b := by
      rw [trimmed, hcut, ← List.singleton_append, ← List.append_assoc]
      exact rdropWhile_slash hbne hb _
    have hpath : isPath (a ++ '/' :: b) = false := by
      rw [← Bool.not_eq_true, isPath_cut ha]
      intro hrooted
      have hid := (isPath_cut m.org_slash m.name).mpr (hrooted.of_lower low hla)
      exact Bool.false_ne_true (h.named.symm.trans hid)
    have hslash : '/' ∈ a ++ '/' :: b := List.mem_append_right _ List.mem_cons_self
    rw [htrim, hpath, if_neg Bool.false_ne_true, if_pos hslash, lastSegment_append hb, ← hcut]
    exact ⟨congrArg some heq, lower_ne low hbne⟩

theorem matches_under (low : Lowering) {m : Repository} (h : m.Plain) {c : List Char}
    (hc : canonical low c = (some (low.lower m.id), low.lower m.name)) :
    Matches low m.id c = true := by
  have hid : m.id ≠ [] := List.append_ne_nil_of_right_ne_nil _ (List.cons_ne_nil _ _)
  rw [matches_iff (canonical_id low h) (lower_ne low hid) (lower_ne low m.name_ne), hc]
  exact ⟨rfl, lower_ne low m.name_ne⟩

theorem mark_not_below {pre : List Char} (hpre : ¬ cacheMark <:+: pre) {r : List Char}
    (hr : ¬ cacheMark <:+: r) : ¬ cacheMark <:+: pre ++ '/' :: r := by
  intro hin
  cases Cut.infix_of_infix_append (by decide) hin with
  | inl hin => exact hpre hin
  | inr hin => exact hr hin

theorem matches_snapshot (low : Lowering) {m : Repository} (h : m.Plain) (hlegible : m.Legible)
    (P : List Char) {r : List Char} (hr : '/' ∉ r ∨ ¬ cacheMark <:+: r) :
    Matches low m.id (m.under P ++ (snapshots ++ r)) = true := by
  apply matches_under low h
  by_cases hmark : cacheMark <:+: r
  · have hm : 'm' ∈ r := hmark.subset List.mem_cons_self
    apply canonical_snapshot low h hlegible P (hr.resolve_right (not_not_intro hmark))
    intro hnil
    have hspace := List.rdropWhile_eq_nil_iff.mp hnil 'm' hm
    exact absurd hspace (by decide)
  · have htext : snapshots ++ r = '/' :: snapshotDirectory ++ '/' :: r := by simp [snapshots]
    apply canonical_under low h hlegible
    · rw [htext]
      exact mark_not_below (by decide) hmark
    · exact .inr ⟨_, rfl⟩
    · intro _ hnil
      have hkept := trimmedBelow_append (c := 's') rfl rfl
        ['/', 's', 'n', 'a', 'p', 's', 'h', 'o', 't'] ('/' :: r)
      exact List.cons_ne_nil _ _ (hkept.symm.trans hnil)

theorem matches_blob (low : Lowering) {m : Repository} (h : m.Plain) (hlegible : m.Legible)
    (P : List Char) {r : List Char} (hmark : ¬ cacheMark <:+: r) :
    Matches low m.id (m.under P ++ (blobs ++ r)) = true := by
  apply matches_under low h
  have htext : blobs ++ r = ['/', 'b', 'l', 'o', 'b', 's'] ++ '/' :: r := rfl
  apply canonical_under low h hlegible
  · rw [htext]
    exact mark_not_below (by decide) hmark
  · exact .inr ⟨_, rfl⟩
  · intro _ hnil
    have hkept := trimmedBelow_append (c := 's') rfl rfl ['/', 'b', 'l', 'o', 'b'] ('/' :: r)
    exact List.cons_ne_nil _ _ (hkept.symm.trans hnil)

/-- The paths of a repository's cache directory, of its snapshots and of its blobs are names of
the repository; another repository's name is one when it is the same but for case and padding; and
being names of one model is symmetric and transitive. -/
theorem modelIdentity_cache (low : Lowering) {m : Repository} (h : m.Plain) :
    (m.Legible → ∀ P,
      (¬ '/' :: snapshotDirectory <:+ P → Matches low m.id (m.under P) = true) ∧
      (∀ r, '/' ∉ r ∨ ¬ cacheMark <:+: r →
        Matches low m.id (m.under P ++ (snapshots ++ r)) = true) ∧
      (∀ r, ¬ cacheMark <:+: r →
        Matches low m.id (m.under P ++ (blobs ++ r)) = true)) ∧
    (∀ other : Repository, Matches low m.id other.id = true ↔
      low.lower (strip other.id) = low.lower m.id) ∧
    (∀ a b, Matches low a b = true → Matches low b a = true) ∧
    (∀ a b c, Matches low a b = true → Matches low b c = true → Matches low a c = true) := by
  refine ⟨fun hlegible P => ⟨?_, fun r hr => matches_snapshot low h hlegible P hr,
    fun r hr => matches_blob low h hlegible P hr⟩, matches_id_iff low h, matches_symm low,
    matches_trans low⟩
  intro hP
  apply matches_under low h
  rw [← List.append_nil (m.under P)]
  exact canonical_under low h hlegible (by decide) (.inl rfl) fun hsuf => absurd hsuf hP

/-- `Qwen/Qwen2-VL` -/
def qwen : Repository where
  org := "Qwen".toList
  name := "Qwen2-VL".toList
  org_ne := by decide
  name_ne := by decide
  org_slash := by decide
  name_slash := by decide
  org_dashes := by decide
  name_dashes := by decide

theorem qwen_plain : qwen.Plain := ⟨by decide, by decide⟩

theorem qwen_legible : qwen.Legible := ⟨by decide, by decide⟩

theorem modelIdentity_cache_qwen :
    Matches .ascii qwen.id (qwen.under "/hub".toList) = true ∧
    Matches .ascii qwen.id (qwen.under "/hub".toList ++ (snapshots ++ "a1b2".toList)) = true ∧
    (∀ other : Repository, Matches .ascii qwen.id other.id = true ↔
      (strip other.id).map Char.toLower = qwen.id.map Char.toLower) := by
  have h := modelIdentity_cache .ascii qwen_plain
  have hpaths := h.1 qwen_legible "/hub".toList
  exact ⟨hpaths.1 (by decide), hpaths.2.1 "a1b2".toList (.inl (by decide)), h.2.1⟩

/-- An owner that starts as a home directory does. -/
def tilde : Repository where
  org := "~org".toList
  name := "name".toList
  org_ne := by decide
  name_ne := by decide
  org_slash := by decide
  name_slash := by decide
  org_dashes := by decide
  name_dashes := by decide

/-- `~org/name` is read as a path, whose last segment alone is compared. -/
theorem tilde_not_matched : ¬ cacheMark <:+: "/hub".toList ∧
    Matches .ascii tilde.id (tilde.under "/hub".toList) = false := by
  decide +kernel

/-- An owner that ends as a cache directory starts. -/
def acme : Repository where
  org := "acme-models".toList
  name := "llama".toList
  org_ne := by decide
  name_ne := by decide
  org_slash := by decide
  name_slash := by decide
  org_dashes := by decide
  name_dashes := by decide

/-- The directory is cut at its last mark, which is in the owner. -/
theorem acme_not_matched : acme.Plain ∧ ¬ cacheMark <:+: "/hub".toList ∧
    Matches .ascii acme.id (acme.under "/hub".toList) = false :=
  ⟨⟨by decide, by decide⟩, by decide +kernel⟩

/-- In a directory called `snapshots` the model's own directory is taken for a revision. -/
theorem snapshots_not_matched : ¬ cacheMark <:+: "/hub/snapshots".toList ∧
    Matches .ascii qwen.id (qwen.under "/hub/snapshots".toList) = false := by
  decide +kernel

end ModelIdentity

end Whooshd
