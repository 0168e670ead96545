import Whooshd.ThreadWake.Isolation

namespace Whooshd.ThreadWake
set_option autoImplicit true

/-- A READY entry stands under the key. -/
def ThreadWakeIndex.HoldsReady (ix : ThreadWakeIndex) (key : String) : Prop :=
  ∃ e, ix.entries.get? key = some e ∧ e.status = .ready

/-- A READY entry under the key is of a scope that needs no identity. -/
def ThreadWakeIndex.ReadyUnscoped (allowGlobal : Bool) (ix : ThreadWakeIndex) (key : String) :
    Prop :=
  ∀ e, ix.entries.get? key = some e → e.status = .ready →
    e.scope = .request ∨ e.scope = .global ∧ allowGlobal = true

/-- The query says yes. -/
def Manager.AnswersReady (env : Env) (m : Manager) (key : String) : Prop :=
  .answered true ∈ (m.hasReadyEntry env (some key)).2

/-- A readiness query that answers for the index and leaves it as it is. -/
structure Manager.ReadinessQuery (env : Env) (m : Manager) (key : String) : Prop where
  answer : m.AnswersReady env key ↔ m.index.HoldsReady key
  entries : (m.hasReadyEntry env (some key)).1.index.entries = m.index.entries
  lru : (m.hasReadyEntry env (some key)).1.index.lru = m.index.lru
  hitCount : (m.hasReadyEntry env (some key)).1.index.hitCount = m.index.hitCount
  missCount : (m.hasReadyEntry env (some key)).1.index.missCount = m.index.missCount

namespace ThreadWakeIndex

variable (sha256Hex : String → String) (allowGlobal : Bool) (ix : ThreadWakeIndex)

theorem get_counted (key : String) (ctx : ScopeContext) :
    (ix.get sha256Hex allowGlobal key ctx).1.hitCount +
        (ix.get sha256Hex allowGlobal key ctx).1.missCount =
      ix.hitCount + ix.missCount + 1 := by
  rw [get]
  split
  · exact (Nat.add_assoc ..).symm
  · exact Nat.add_right_comm ..

theorem scopeMatches_none (e : ThreadWakeIndexEntry) :
    scopeMatches sha256Hex allowGlobal e .none = true ↔
      e.scope = .request ∨ e.scope = .global ∧ allowGlobal = true := by
  rw [scopeMatches]
  cases e.scope <;> simp [ScopeContext.none, ScopeContext.identity, present, idsMatch]

/-- A lookup without identity finds the READY entries of no identity. -/
theorem get_none_ready (key : String) :
    ((ix.get sha256Hex allowGlobal key .none).2.any (fun e => e.status = .ready)) = true ↔
      ∃ e, ix.entries.get? key = some e ∧ e.status = .ready ∧
        (e.scope = .request ∨ e.scope = .global ∧ allowGlobal = true) := by
  rw [get, visible]
  cases hget : ix.entries.get? key with
  | none => simp
  | some e =>
    have hscope := scopeMatches_none sha256Hex allowGlobal e
    cases hmatch : scopeMatches sha256Hex allowGlobal e .none with
    | false =>
      rw [hmatch] at hscope
      cases hstatus : e.status <;> simp_all
    | true =>
      rw [hmatch] at hscope
      cases hstatus : e.status <;> simp_all [ThreadWakeIndexEntry.touch]

end ThreadWakeIndex

namespace Manager

theorem answersReady_iff (env : Env) (m : Manager) (key : String) :
    m.AnswersReady env key ↔ ∃ e, m.index.entries.get? key = some e ∧ e.status = .ready ∧
      (e.scope = .request ∨ e.scope = .global ∧ env.allowGlobal = true) := by
  rw [← ThreadWakeIndex.get_none_ready env.sha256Hex]
  simp only [AnswersReady, hasReadyEntry, List.mem_cons, reduceCtorEq, false_or,
    List.not_mem_nil, or_false, Event.answered.injEq]
  exact eq_comm

/-- The query is always counted as a use of the cache. Its answer alone is right exactly if no
READY entry under the key belongs to a thread, a project, a user, or to a global scope that is
switched off. -/
theorem readinessQuery_never (env : Env) (m : Manager) (key : String) :
    ¬ m.ReadinessQuery env key ∧
      ((m.AnswersReady env key ↔ m.index.HoldsReady key) ↔
        m.index.ReadyUnscoped env.allowGlobal key) := by
  constructor
  · intro h
    have hcount := ThreadWakeIndex.get_counted env.sha256Hex env.allowGlobal m.index key .none
    have hhits : (m.index.get env.sha256Hex env.allowGlobal key .none).1.hitCount =
        m.index.hitCount := h.hitCount
    have hmisses : (m.index.get env.sha256Hex env.allowGlobal key .none).1.missCount =
        m.index.missCount := h.missCount
    omega
  · rw [answersReady_iff]
    constructor
    · intro h e hget hready
      obtain ⟨e', hget', -, hscope⟩ := h.mpr ⟨e, hget, hready⟩
      rw [hget, Option.some.injEq] at hget'
      rw [hget']
      exact hscope
    · intro h
      constructor
      · rintro ⟨e, hget, hready, -⟩
        exact ⟨e, hget, hready⟩
      · rintro ⟨e, hget, hready⟩
        exact ⟨e, hget, hready, h e hget hready⟩

/-- After an execution has stored its prefix for a user, the READY entry is not reported. -/
theorem ready_entry_denied : ¬ ∀ (env : Env) (limits : IndexLimits) (calls : List Call)
    (key : String), ((Manager.init limits).run env calls).1.ReadinessQuery env key := by
  intro h
  obtain ⟨-, hseal, -⟩ := executeEphemeral_first .exact (init_blank .one)
    (userChat_reuses "alice") (fun h => by cases h) (by decide +kernel) rfl rfl
  obtain ⟨e, hget, hsealed⟩ := ThreadWakeIndex.sealOf_eq_some (hseal (by decide) (by decide))
  have hquery := (h charEnv .one [.execute (userChat "alice") .exact]
    ((userChat "alice").cacheKey charEnv)).answer
  simp only [Manager.run, step] at hquery
  obtain ⟨e', hget', -, hscope⟩ := (answersReady_iff _ _ _).mp
    (hquery.mpr ⟨e, hget, congrArg Seal.status hsealed⟩)
  rw [hget, Option.some.injEq] at hget'
  have howner : e.scope = (userChat "alice").scope charEnv := congrArg Seal.scope hsealed
  rw [← hget', howner] at hscope
  revert hscope
  decide +kernel

end Manager

end Whooshd.ThreadWake
