import Mathlib.Data.List.Basic
import Mathlib.Data.List.Infix

set_option autoImplicit true

/-- The name of a file or directory: a path component that is neither empty nor a dot entry. -/
def IsPathName (s : String) : Prop := s ≠ "" ∧ '/' ∉ s.toList ∧ s ≠ "." ∧ s ≠ ".."

instance (s : String) : Decidable (IsPathName s) := inferInstanceAs (Decidable (_ ∧ _))

/-- An absolute path whose links and dot entries have been resolved. -/
structure ResolvedPath where
  parts : List String
  names : ∀ p ∈ parts, IsPathName p
  deriving DecidableEq

namespace ResolvedPath

/-- The components, each behind its separator. -/
def chars (parts : List String) : List Char := parts.flatMap fun p => '/' :: p.toList

/-- The text of the path. -/
def str (p : ResolvedPath) : String :=
  if p.parts = [] then "/" else String.ofList (chars p.parts)

/-- The path is the root or lies below it, by components. -/
def Under (root p : ResolvedPath) : Prop := root.parts <+: p.parts

instance (root p : ResolvedPath) : Decidable (root.Under p) :=
  inferInstanceAs (Decidable (_ <+: _))

/-- The path leads through a sibling of the root whose name goes on after the root's own. -/
def ThroughLongerSibling (root p : ResolvedPath) : Prop :=
  ∃ parent name extra rest, extra ≠ [] ∧ root.parts = parent ++ [name] ∧
    p.parts = parent ++ String.ofList (name.toList ++ extra) :: rest

/-- The components of a written path: empty ones and single dots do not count. -/
def split (s : String) : List String :=
  ((s.toList.splitOn '/').map String.ofList).filter fun c => c ≠ "" && c ≠ "."

/-- What the path operator `/` makes of a directory and a written path. -/
def join (dir : ResolvedPath) (s : String) : List String :=
  if s.toList.head? = some '/' then split s else dir.parts ++ split s

/-- The last component of a written path. -/
def name (s : String) : String := ((split s).getLast?).getD ""

/-- The text of a relative path. -/
def relative (parts : List String) : String :=
  String.ofList (['/'].intercalate (parts.map String.toList))

/-- The path that a directory without links resolves to: each `..` takes a name back. -/
def ofParts (parts : List String) : ResolvedPath :=
  ⟨(parts.foldl (fun acc p => if p = ".." then acc.dropLast else acc ++ [p]) []).filter
    (fun p => IsPathName p), by simp⟩

theorem chars_cons (a : String) (l : List String) :
    chars (a :: l) = '/' :: (a.toList ++ chars l) := by
  simp [chars]

theorem chars_head (l : List String) : chars l = [] ∨ ∃ cs, chars l = '/' :: cs := by
  cases l with
  | nil => exact .inl rfl
  | cons a l => exact .inr ⟨_, chars_cons a l⟩

/-- Two names followed by separators or the end agree as far as one text begins the other. -/
theorem prefix_of_no_slash {a b u v : List Char} (ha : '/' ∉ a) (hb : '/' ∉ b)
    (hv : v = [] ∨ ∃ cs, v = '/' :: cs) (h : a ++ u <+: b ++ v) :
    (∃ w, b = a ++ w) ∧ (u ≠ [] → u.head? = some '/' → a = b ∧ u <+: v) := by
  induction a generalizing b with
  | nil =>
    refine ⟨⟨b, rfl⟩, ?_⟩
    intro hu hhead
    cases b with
    | nil => exact ⟨rfl, h⟩
    | cons c b =>
      cases u with
      | nil => exact absurd rfl hu
      | cons d u =>
        obtain rfl : d = '/' := by simpa using hhead
        obtain ⟨rfl, -⟩ := List.cons_prefix_cons.mp h
        simp at hb
  | cons c a ih =>
    cases b with
    | nil =>
      rcases hv with rfl | ⟨cs, rfl⟩
      · simp at h
      · obtain ⟨rfl, -⟩ := List.cons_prefix_cons.mp h
        simp at ha
    | cons d b =>
      obtain ⟨rfl, hrest⟩ := List.cons_prefix_cons.mp h
      simp only [List.mem_cons, not_or] at ha hb
      obtain ⟨⟨w, hw⟩, hu⟩ := ih ha.2 hb.2 hrest
      refine ⟨⟨w, by rw [hw, List.cons_append]⟩, ?_⟩
      intro hne hhead
      obtain ⟨heq, hpre⟩ := hu hne hhead
      exact ⟨by rw [heq], hpre⟩

/-- One path's text begins another's exactly when it does so component by component, or the
last component of the first is properly continued in the second. -/
theorem chars_prefix_iff {p q : List String} (hne : p ≠ []) (hp : ∀ c ∈ p, '/' ∉ c.toList)
    (hq : ∀ c ∈ q, '/' ∉ c.toList) :
    chars p <+: chars q ↔ p <+: q ∨ ∃ parent name extra rest, extra ≠ [] ∧
      p = parent ++ [name] ∧ q = parent ++ String.ofList (name.toList ++ extra) :: rest := by
  induction p generalizing q with
  | nil => exact absurd rfl hne
  | cons a p ih =>
    cases q with
    | nil =>
      simp [chars]
    | cons b q =>
      have ha := hp a List.mem_cons_self
      have hb := hq b List.mem_cons_self
      rw [chars_cons, chars_cons, List.cons_prefix_cons, List.cons_prefix_cons]
      simp only [true_and]
      constructor
      · intro h
        obtain ⟨⟨w, hw⟩, hrest⟩ := prefix_of_no_slash ha hb (chars_head q) h
        cases p with
        | nil =>
          cases w with
          | nil =>
            left
            rw [List.append_nil] at hw
            exact ⟨(String.toList_injective hw).symm, List.nil_prefix⟩
          | cons d w =>
            right
            refine ⟨[], a, d :: w, q, by simp, rfl, ?_⟩
            rw [← hw, String.ofList_toList, List.nil_append]
        | cons a' p =>
          have hcs : chars (a' :: p) ≠ [] ∧ (chars (a' :: p)).head? = some '/' := by
            simp [chars_cons]
          obtain ⟨heq, hpre⟩ := hrest hcs.1 hcs.2
          obtain rfl := String.toList_injective heq
          have hrec := (ih (by simp) (fun c hc => hp c (List.mem_cons_of_mem _ hc))
            (fun c hc => hq c (List.mem_cons_of_mem _ hc))).mp hpre
          rcases hrec with hpq | ⟨parent, name, extra, rest, hx, hp', hq'⟩
          · exact .inl ⟨rfl, hpq⟩
          · right
            exact ⟨a :: parent, name, extra, rest, hx, by rw [hp']; rfl, by rw [hq']; rfl⟩
      · rintro (⟨rfl, hpq⟩ | ⟨parent, name, extra, rest, hx, hp', hq'⟩)
        · rw [List.prefix_append_right_inj]
          obtain ⟨r, rfl⟩ := hpq
          simp [chars]
        · cases parent with
          | nil =>
            obtain ⟨rfl, rfl⟩ : a = name ∧ p = [] := by simpa using hp'
            obtain ⟨rfl, rfl⟩ : b = String.ofList (a.toList ++ extra) ∧ q = rest := by
              simpa using hq'
            simp [chars]
          | cons c parent =>
            obtain ⟨rfl, rfl⟩ : a = c ∧ p = parent ++ [name] := by simpa using hp'
            obtain ⟨rfl, rfl⟩ :
                b = a ∧ q = parent ++ String.ofList (name.toList ++ extra) :: rest := by
              simpa using hq'
            rw [List.prefix_append_right_inj]
            exact (ih (by simp) (fun c hc => hp c (List.mem_cons_of_mem _ hc))
              (fun c hc => hq c (List.mem_cons_of_mem _ hc))).mpr
                (.inr ⟨parent, name, extra, rest, hx, rfl, rfl⟩)

/-- The test `str(p).startswith(str(root))`. -/
def startsWith (p root : ResolvedPath) : Bool := root.str.toList.isPrefixOf p.str.toList

theorem startsWith_iff (p root : ResolvedPath) :
    p.startsWith root = true ↔ root.Under p ∨ root.ThroughLongerSibling p := by
  have hnames : ∀ q : ResolvedPath, ∀ c ∈ q.parts, '/' ∉ c.toList :=
    fun q c hc => (q.names c hc).2.1
  rw [startsWith, List.isPrefixOf_iff_prefix]
  by_cases hroot : root.parts = []
  · have hslash : ∃ cs, p.str.toList = '/' :: cs := by
      rcases chars_head p.parts with h | ⟨cs, h⟩
      · have hp : p.parts = [] := by
          cases hparts : p.parts with
          | nil => rfl
          | cons a l => simp [hparts, chars_cons] at h
        exact ⟨[], by simp [str, hp]⟩
      · refine ⟨cs, ?_⟩
        have hp : p.parts ≠ [] := by
          intro hp
          simp [hp, chars] at h
        rw [str, if_neg hp, String.toList_ofList, h]
    obtain ⟨cs, hcs⟩ := hslash
    refine iff_of_true ?_ (.inl ?_)
    · rw [str, if_pos hroot, hcs]
      exact ⟨cs, rfl⟩
    · rw [Under, hroot]
      exact List.nil_prefix
  · rw [str, if_neg hroot, String.toList_ofList]
    have hp : p.str.toList = chars p.parts ∨ (p.parts = [] ∧ p.str.toList = ['/']) := by
      by_cases h : p.parts = []
      · exact .inr ⟨h, by simp [str, h]⟩
      · exact .inl (by rw [str, if_neg h, String.toList_ofList])
    rcases hp with hp | ⟨hnil, hp⟩
    · rw [hp]
      exact chars_prefix_iff hroot (hnames root) (hnames p)
    · -- the text of the root directory is a lone separator, too short to be begun by a name
      rw [hp]
      cases hparts : root.parts with
      | nil => exact absurd hparts hroot
      | cons a l =>
        have ha : a.toList ≠ [] := by
          intro h
          apply (root.names a (by rw [hparts]; exact List.mem_cons_self)).1
          exact String.toList_injective h
        simp [Under, ThroughLongerSibling, hnil, hparts, chars_cons, ha]

theorem ThroughLongerSibling.not_under {root p : ResolvedPath}
    (h : root.ThroughLongerSibling p) : ¬ root.Under p := by
  obtain ⟨parent, name, extra, rest, hextra, hroot, hp⟩ := h
  intro hunder
  rw [Under, hroot, hp, List.prefix_append_right_inj, List.cons_prefix_cons] at hunder
  have hname := congrArg String.toList hunder.1
  rw [String.toList_ofList, List.self_eq_append_right] at hname
  exact hextra hname

theorem split_intercalate {parts : List String} (hnames : ∀ p ∈ parts, IsPathName p)
    (pre : List (List Char)) (hpre : ∀ cs ∈ pre, cs = []) (hne : pre ++ parts.map (·.toList) ≠ []) :
    split (String.ofList (['/'].intercalate (pre ++ parts.map (·.toList)))) = parts := by
  have hslash : ∀ cs ∈ pre ++ parts.map (·.toList), '/' ∉ cs := by
    intro cs hcs
    rcases List.mem_append.mp hcs with h | h
    · rw [hpre cs h]
      exact List.not_mem_nil
    · obtain ⟨p, hp, rfl⟩ := List.mem_map.mp h
      exact (hnames p hp).2.1
  rw [split, String.toList_ofList, List.splitOn_intercalate _ hslash hne, List.map_append,
    List.filter_append, List.map_map]
  have hblank : (pre.map String.ofList).filter (fun c => c ≠ "" && c ≠ ".") = [] := by
    rw [List.filter_eq_nil_iff]
    intro c hc
    obtain ⟨cs, hcs, rfl⟩ := List.mem_map.mp hc
    simp [hpre cs hcs]
  have hsame : parts.map (String.ofList ∘ (·.toList)) = parts := by
    simp [Function.comp_def]
  rw [hblank, hsame, List.nil_append, List.filter_eq_self]
  intro p hp
  simp [(hnames p hp).1, (hnames p hp).2.2.1]

theorem split_relative {parts : List String} (hnames : ∀ p ∈ parts, IsPathName p)
    (hne : parts ≠ []) : split (relative parts) = parts :=
  split_intercalate hnames [] (by simp) (by simpa using hne)

theorem split_name (h : IsPathName s) : split s = [s] := by
  have hnames : ∀ p ∈ [s], IsPathName p := by simpa using h
  have hsplit := split_relative hnames (by simp)
  rwa [relative, List.map_singleton, List.intercalate_singleton, String.ofList_toList] at hsplit

theorem chars_eq_intercalate (a : String) (l : List String) :
    chars (a :: l) = ['/'].intercalate ([[]] ++ (a :: l).map (·.toList)) := by
  induction l generalizing a with
  | nil => simp [chars, List.intercalate]
  | cons b l ih =>
    rw [chars_cons, ih b]
    simp [List.intercalate]

theorem split_str (p : ResolvedPath) : split p.str = p.parts := by
  cases hp : p.parts with
  | nil =>
    rw [str, if_pos hp]
    decide
  | cons a l =>
    rw [str, if_neg (by simp [hp]), hp, chars_eq_intercalate]
    apply split_intercalate _ [[]] (by simp) (by simp)
    rw [← hp]
    exact p.names

theorem str_injective (h : str p = str q) : p = q := by
  have hparts : p.parts = q.parts := by rw [← split_str, h, split_str]
  cases p
  cases q
  cases hparts
  rfl

theorem ofParts_names {parts : List String} (hnames : ∀ p ∈ parts, IsPathName p) :
    ofParts parts = ⟨parts, hnames⟩ := by
  have hfold : ∀ acc, parts.foldl
      (fun acc p => if p = ".." then acc.dropLast else acc ++ [p]) acc = acc ++ parts := by
    induction parts with
    | nil => simp
    | cons p parts ih =>
      intro acc
      have hp : p ≠ ".." := (hnames p List.mem_cons_self).2.2.2
      rw [List.foldl_cons, if_neg hp, ih fun q hq => hnames q (List.mem_cons_of_mem _ hq)]
      simp
  have hall : parts.filter (fun p => IsPathName p) = parts :=
    List.filter_eq_self.mpr fun p hp => by simpa using hnames p hp
  simp only [ofParts, hfold, List.nil_append, hall]

theorem not_mem_of_mem_splitOn {c : Char} {s : List Char} (h : part ∈ s.splitOn c) :
    c ∉ part := by
  induction s generalizing part with
  | nil =>
    rw [List.splitOn_nil, List.mem_singleton] at h
    exact h ▸ List.not_mem_nil
  | cons d s ih =>
    rw [List.splitOn_cons_eq_if_modifyHead] at h
    split at h
    · rcases List.mem_cons.mp h with rfl | h
      · exact List.not_mem_nil
      · exact ih h
    · rename_i hd
      cases hs : s.splitOn c with
      | nil => exact absurd hs (List.splitOn_ne_nil c s)
      | cons first parts =>
        rw [hs] at h ih
        rcases List.mem_cons.mp h with rfl | h
        · intro hmem
          rcases List.mem_cons.mp hmem with rfl | hmem
          · exact hd (BEq.refl c)
          · exact ih List.mem_cons_self hmem
        · exact ih (List.mem_cons_of_mem _ h)

theorem split_dot : split "." = [] := by decide

theorem split_up : split ".." = [".."] := by decide

theorem length_ofParts_concat (parts : List String) (part : String) :
    (ofParts (parts ++ [part])).parts.length ≤ (ofParts parts).parts.length + 1 := by
  simp only [ofParts, List.foldl_append, List.foldl_cons, List.foldl_nil]
  split
  · have hless := (List.dropLast_sublist (parts.foldl
      (fun acc p => if p = ".." then acc.dropLast else acc ++ [p]) [])).filter
        (fun p => decide (IsPathName p))
    exact Nat.le_succ_of_le hless.length_le
  · rw [List.filter_append, List.length_append]
    exact Nat.add_le_add_left (List.length_filter_le _ _) _

theorem length_ofParts_append (parts tail : List String) :
    (ofParts (parts ++ tail)).parts.length ≤ (ofParts parts).parts.length + tail.length := by
  induction tail generalizing parts with
  | nil => simp
  | cons part tail ih =>
    have hrest := ih (parts ++ [part])
    have hpart := length_ofParts_concat parts part
    rw [List.append_assoc] at hrest
    rw [List.length_cons]
    exact le_trans hrest (by omega)

theorem ofParts_up {name : String} (h : name ≠ "..") (parts rest : List String) :
    ofParts (parts ++ name :: ".." :: rest) = ofParts (parts ++ rest) := by
  simp only [ofParts, List.foldl_append, List.foldl_cons, if_neg h, if_true, List.dropLast_concat]

end ResolvedPath
