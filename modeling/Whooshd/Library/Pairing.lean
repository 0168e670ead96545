import Whooshd.Library.Dict

set_option autoImplicit true

/-- No two of the pairs agree on one side only. -/
def PairedOff (l : List (α × β)) : Prop := ∀ p ∈ l, ∀ q ∈ l, p.1 = q.1 ↔ p.2 = q.2

namespace PairedOff

theorem nil : PairedOff ([] : List (α × β)) := fun _ h => nomatch h

theorem append_singleton {l : List (α × β)} : PairedOff (l ++ [p]) ↔
    PairedOff l ∧ ∀ q ∈ l, q.1 = p.1 ↔ q.2 = p.2 := by
  constructor
  · intro h
    apply And.intro
    · exact fun q hq r hr => h q (List.mem_append_left _ hq) r (List.mem_append_left _ hr)
    · exact fun q hq => h q (List.mem_append_left _ hq) p (by simp)
  · rintro ⟨h, hp⟩ q hq r hr
    rw [List.mem_append, List.mem_singleton] at hq hr
    rcases hq with hq | rfl
    · rcases hr with hr | rfl
      · exact h q hq r hr
      · exact hp q hq
    · rcases hr with hr | rfl
      · rw [eq_comm, hp r hr, eq_comm]
      · exact ⟨fun _ => rfl, fun _ => rfl⟩

theorem of_append {l l' : List (α × β)} (h : PairedOff (l ++ l')) : PairedOff l :=
  fun p hp q hq => h p (List.mem_append_left _ hp) q (List.mem_append_left _ hq)

variable [DecidableEq α] [DecidableEq β]

/-- The pairs are indexed by either side. -/
structure Indexed (firsts : Dict β α) (seconds : Dict α β) (l : List (α × β)) : Prop where
  first : ∀ a b, firsts.get? b = some a ↔ (a, b) ∈ l
  second : ∀ a b, seconds.get? a = some b ↔ (a, b) ∈ l

theorem Indexed.empty : Indexed (α := α) (β := β) .empty .empty [] :=
  ⟨fun _ _ => by simp, fun _ _ => by simp⟩

/-- A new pair goes with the others exactly if neither index holds another partner. -/
theorem Indexed.goes_with_iff {l : List (α × β)} (h : Indexed firsts seconds l) (p : α × β) :
    ((firsts.get? p.2).all (· = p.1) = true ∧ (seconds.get? p.1).all (· = p.2) = true) ↔
      ∀ q ∈ l, q.1 = p.1 ↔ q.2 = p.2 := by
  simp only [Option.all_eq_true, decide_eq_true_eq]
  constructor
  · rintro ⟨hfirst, hsecond⟩ q hq
    apply Iff.intro
    · intro heq
      exact hsecond q.2 ((h.second p.1 q.2).mpr (heq ▸ hq))
    · intro heq
      exact hfirst q.1 ((h.first q.1 p.2).mpr (heq ▸ hq))
  · intro hgoes
    apply And.intro
    · intro a ha
      exact (hgoes (a, p.2) ((h.first a p.2).mp ha)).mpr rfl
    · intro b hb
      exact (hgoes (p.1, b) ((h.second p.1 b).mp hb)).mp rfl

theorem Indexed.insert {l : List (α × β)} (h : Indexed firsts seconds l) {p : α × β}
    (hgoes : ∀ q ∈ l, q.1 = p.1 ↔ q.2 = p.2) :
    Indexed (firsts.set p.2 p.1) (seconds.set p.1 p.2) (l ++ [p]) := by
  obtain ⟨a, b⟩ := p
  refine ⟨fun a' b' => ?_, fun a' b' => ?_⟩
  · rw [Dict.get?_set, List.mem_append, List.mem_singleton]
    split
    · next hb =>
      subst hb
      rw [Option.some.injEq]
      constructor
      · rintro rfl
        exact .inr rfl
      · intro hin
        rcases hin with hin | heq
        · exact ((hgoes _ hin).mpr rfl).symm
        · exact (Prod.mk.inj heq).1.symm
    · next hb =>
      rw [h.first, or_iff_left]
      intro heq
      exact hb (Prod.mk.inj heq).2
  · rw [Dict.get?_set, List.mem_append, List.mem_singleton]
    split
    · next ha =>
      subst ha
      rw [Option.some.injEq]
      constructor
      · rintro rfl
        exact .inr rfl
      · intro hin
        rcases hin with hin | heq
        · exact ((hgoes _ hin).mp rfl).symm
        · exact (Prod.mk.inj heq).2.symm
    · next ha =>
      rw [h.second, or_iff_left]
      intro heq
      exact ha (Prod.mk.inj heq).1

end PairedOff
