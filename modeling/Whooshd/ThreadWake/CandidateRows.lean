import Whooshd.ThreadWake.CandidateStorage
import Mathlib.Data.List.Induction

namespace Whooshd.ThreadWake
set_option autoImplicit true

variable {σ : Type}

/-- The table holds one row for each owner and prefix seen, with the values of the last upsert and
the number of upserts. -/
structure Refines (us : List (Upsert σ)) (rows : List (CandidateRow σ)) : Prop where
  seen : ∀ u ∈ us, ∃ row ∈ rows, row.owner = u.owner ∧ row.prefixHash = u.entry.promptPrefixHash
  once : (rows.map fun r => (r.owner, r.prefixHash)).Nodup
  latest : ∀ row ∈ rows, ∃ last,
    (upsertsOf us row.owner row.prefixHash).getLast? = some last ∧
      row.values = last.inserted.values ∧
      row.candidateSeenCount = (upsertsOf us row.owner row.prefixHash).length

/-- No upsert changes what is stored for another owner. -/
def Separate (us : List (Upsert σ)) : Prop :=
  ∀ before u after, us = before ++ u :: after → ∀ row : CandidateRow σ, row.owner ≠ u.owner →
    (row ∈ (upsertAll before).values ↔ row ∈ (upsertAll (before ++ [u])).values)

/-- The durable table is a map for each owner, and its statistics are the counts over its rows. -/
def DurablePerOwner (us : List (Upsert σ)) : Prop :=
  Refines us (upsertAll us).values ∧ Separate us ∧
    candidateStats (upsertAll us) = countsOf (upsertAll us).values

/-- The upserts for one prefix, whoever they are for. -/
def upsertsAt (us : List (Upsert σ)) (hash : String) : List (Upsert σ) :=
  us.filter (·.entry.promptPrefixHash = hash)

/-- No prefix is upserted for two owners. -/
def OneOwner (us : List (Upsert σ)) : Prop :=
  ∀ u ∈ us, ∀ u' ∈ us, u.entry.promptPrefixHash = u'.entry.promptPrefixHash → u.owner = u'.owner

/-- The last upsert for a prefix has the tokenizer and the chat template of the first one. -/
def SameTemplates (us : List (Upsert σ)) : Prop :=
  ∀ hash first last, (upsertsAt us hash).head? = some first →
    (upsertsAt us hash).getLast? = some last →
      first.entry.tokenizerHash = last.entry.tokenizerHash ∧
        first.entry.chatTemplateHash = last.entry.chatTemplateHash

/-- The statistics are right except over no rows, where three of them are null. -/
theorem candidateStats_iff (table : CandidateTable σ) :
    candidateStats table = countsOf table.values ↔ table.values ≠ [] := by
  have hsaved : ∀ rows : List (CandidateRow σ),
      (rows.map (·.potentialSavedTokens)).filterMap id = rows.filterMap (·.potentialSavedTokens) :=
    fun rows => List.filterMap_map
  have hseen : ∀ rows : List (CandidateRow σ),
      (rows.map fun r => some (r.candidateSeenCount : Int)).filterMap id =
        rows.map fun r => (r.candidateSeenCount : Int) := by
    intro rows
    rw [List.filterMap_map, ← List.filterMap_eq_map]
    rfl
  rw [candidateStats, countsOf]
  simp only [Sql.sum_indicator, Sql.coalesce_sum, hsaved, hseen]
  by_cases hrows : table.values = []
  · simp [hrows]
  · rw [if_neg hrows, if_neg hrows, if_neg hrows]
    simp [hrows]

/-- What the upserts for one prefix leave. -/
def merged (us : List (Upsert σ)) : Option (CandidateRow σ) :=
  us.foldl (fun row u => some (row.elim u.inserted u.updated)) none

theorem upsertAll_get? (us : List (Upsert σ)) (hne : ∀ u ∈ us, u.entry.promptPrefixHash ≠ "")
    (hash : String) : (upsertAll us).get? hash = merged (upsertsAt us hash) := by
  induction us using List.reverseRecOn with
  | nil => rfl
  | append_singleton us u ih =>
    have ih := ih fun u' hu' => hne u' (List.mem_append_left _ hu')
    have hu := hne u (List.mem_append_right _ (List.mem_singleton_self u))
    have hstep : upsertAll (us ++ [u]) =
        Sql.upsert (upsertAll us) u.entry.promptPrefixHash u.inserted u.updated := by
      rw [upsertAll, List.foldl_append]
      exact if_neg hu
    rw [hstep, Sql.upsert_get?, upsertsAt, List.filter_append, List.filter_singleton]
    by_cases hhash : u.entry.promptPrefixHash = hash
    · subst hhash
      rw [if_pos rfl, decide_eq_true rfl, ih]
      simp only [cond_true]
      rw [merged, merged, List.foldl_append]
      rfl
    · rw [if_neg (Ne.symm hhash), decide_eq_false hhash, ih]
      simp only [cond_false, List.append_nil]
      rfl

/-- The row of a prefix has the owner and the templates of its first upsert, and the other values
of its last one. -/
theorem merged_eq_some (us : List (Upsert σ)) (h : merged us = some row) :
    ∃ first last, us.head? = some first ∧ us.getLast? = some last ∧
      row.prefixHash = first.entry.promptPrefixHash ∧ row.owner = first.owner ∧
      row.candidateSeenCount = us.length ∧
      row.values = { last.inserted.values with
        promptPrefixHash := first.inserted.prefixHash
        backend := some first.inserted.backend
        modelId := some first.inserted.modelId
        tokenizerHash := first.entry.tokenizerHash
        chatTemplateHash := first.entry.chatTemplateHash } := by
  induction us using List.reverseRecOn generalizing row with
  | nil => cases h
  | append_singleton us u ih =>
    rw [merged, List.foldl_append] at h
    cases hus : merged us with
    | none =>
      have hnil : us = [] := by
        cases us using List.reverseRecOn with
        | nil => rfl
        | append_singleton us u' =>
          rw [merged, List.foldl_append] at hus
          cases hus
      subst hnil
      cases h
      exact ⟨u, u, rfl, rfl, rfl, rfl, rfl, rfl⟩
    | some old =>
      obtain ⟨first, last, hfirst, hlast, hhash, howner, hcount, hvalues⟩ := ih hus
      rw [show us.foldl _ none = some old from hus] at h
      cases h
      refine ⟨first, u, ?_, List.getLast?_concat, hhash, howner, ?_, ?_⟩
      · rw [List.head?_append, hfirst, Option.some_or]
      · rw [List.length_append, List.length_singleton, ← hcount]
        rfl
      · simp only [CandidateRow.values, CandidateEntry.mk.injEq] at hvalues
        simp only [CandidateRow.values, Upsert.updated, Option.elim_some, CandidateEntry.mk.injEq,
          and_true]
        exact ⟨hvalues.1, hvalues.2.1, hvalues.2.2.1, hvalues.2.2.2.1, hvalues.2.2.2.2.1⟩

theorem merged_isSome (us : List (Upsert σ)) (h : us ≠ []) : ∃ row, merged us = some row := by
  cases us using List.reverseRecOn with
  | nil => exact absurd rfl h
  | append_singleton us u =>
    rw [merged, List.foldl_append]
    exact ⟨_, rfl⟩

theorem mem_upsertsAt {us : List (Upsert σ)} {u : Upsert σ} {hash : String} :
    u ∈ upsertsAt us hash ↔ u ∈ us ∧ u.entry.promptPrefixHash = hash := by
  rw [upsertsAt, List.mem_filter, decide_eq_true_eq]

theorem mem_values_iff {table : CandidateTable σ} {row : CandidateRow σ} :
    row ∈ table.values ↔ ∃ hash, table.get? hash = some row := by
  simp only [Dict.values, List.mem_map, Dict.get?_eq_some, Prod.exists, exists_eq_right]

section Rows

variable {us : List (Upsert σ)} {u : Upsert σ} {row : CandidateRow σ} {hash : String}

theorem row_spec (hne : ∀ u ∈ us, u.entry.promptPrefixHash ≠ "")
    (hrow : (upsertAll us).get? hash = some row) :
    ∃ first last, (upsertsAt us hash).head? = some first ∧
      (upsertsAt us hash).getLast? = some last ∧
      row.prefixHash = hash ∧ row.owner = first.owner ∧
      row.candidateSeenCount = (upsertsAt us hash).length ∧
      row.values = { last.inserted.values with
        promptPrefixHash := first.inserted.prefixHash
        backend := some first.inserted.backend
        modelId := some first.inserted.modelId
        tokenizerHash := first.entry.tokenizerHash
        chatTemplateHash := first.entry.chatTemplateHash } := by
  rw [upsertAll_get? us hne] at hrow
  obtain ⟨first, last, hfirst, hlast, hkey, hrest⟩ := merged_eq_some _ hrow
  have hhash := (mem_upsertsAt.mp (List.mem_of_mem_head? hfirst)).2
  exact ⟨first, last, hfirst, hlast, hkey.trans hhash, hrest⟩

theorem row_mem (hne : ∀ u ∈ us, u.entry.promptPrefixHash ≠ "") :
    row ∈ (upsertAll us).values ↔ (upsertAll us).get? row.prefixHash = some row := by
  rw [mem_values_iff]
  constructor
  · rintro ⟨hash, hget⟩
    obtain ⟨-, -, -, -, hhash, -⟩ := row_spec hne hget
    rwa [hhash]
  · exact fun hget => ⟨_, hget⟩

theorem row_of_mem (hne : ∀ u ∈ us, u.entry.promptPrefixHash ≠ "") (hu : u ∈ us) :
    ∃ row, (upsertAll us).get? u.entry.promptPrefixHash = some row := by
  rw [upsertAll_get? us hne]
  apply merged_isSome
  have hmem : u ∈ upsertsAt us u.entry.promptPrefixHash := mem_upsertsAt.mpr ⟨hu, rfl⟩
  exact List.ne_nil_of_mem hmem

theorem upsertsOf_eq (howner : OneOwner us) (hu : u ∈ us) :
    upsertsOf us u.owner u.entry.promptPrefixHash = upsertsAt us u.entry.promptPrefixHash := by
  apply List.filter_congr
  intro u' hu'
  rw [decide_eq_decide]
  constructor
  · exact fun h => h.2
  · exact fun h => ⟨howner u' hu' u hu h, h⟩

theorem durable_stats_iff (hne : ∀ u ∈ us, u.entry.promptPrefixHash ≠ "") :
    candidateStats (upsertAll us) = countsOf (upsertAll us).values ↔ us ≠ [] := by
  rw [candidateStats_iff]
  constructor
  · rintro hvalues rfl
    exact hvalues rfl
  · intro hus
    obtain ⟨u, hu⟩ := List.exists_mem_of_ne_nil us hus
    obtain ⟨row, hrow⟩ := row_of_mem hne hu
    exact List.ne_nil_of_mem (mem_values_iff.mpr ⟨_, hrow⟩)

theorem upsertAll_snoc_get? (us : List (Upsert σ)) (hu : u.entry.promptPrefixHash ≠ "")
    (hhash : hash ≠ u.entry.promptPrefixHash) :
    (upsertAll (us ++ [u])).get? hash = (upsertAll us).get? hash := by
  have hstep : upsertAll (us ++ [u]) =
      Sql.upsert (upsertAll us) u.entry.promptPrefixHash u.inserted u.updated := by
    rw [upsertAll, List.foldl_append]
    exact if_neg hu
  rw [hstep, Sql.upsert_get?, if_neg hhash]

theorem row_grows (hne : ∀ u' ∈ us ++ [u], u'.entry.promptPrefixHash ≠ "")
    (hrow : (upsertAll us).get? u.entry.promptPrefixHash = some row) :
    (upsertAll (us ++ [u])).get? u.entry.promptPrefixHash ≠ some row := by
  intro hrow'
  obtain ⟨-, -, -, -, -, -, hcount, -⟩ :=
    row_spec (fun u' hu' => hne u' (List.mem_append_left _ hu')) hrow
  obtain ⟨-, -, -, -, -, -, hcount', -⟩ := row_spec hne hrow'
  have hself : upsertsAt [u] u.entry.promptPrefixHash = [u] :=
    List.filter_eq_self.mpr (by simp)
  rw [upsertsAt, List.filter_append, List.length_append] at hcount'
  rw [show [u].filter _ = [u] from hself, List.length_singleton] at hcount'
  rw [upsertsAt] at hcount
  omega

theorem oneOwner_of_separate (hne : ∀ u ∈ us, u.entry.promptPrefixHash ≠ "")
    (h : Separate us) : OneOwner us := by
  have hfirst : ∀ u ∈ us, ∃ first, (upsertsAt us u.entry.promptPrefixHash).head? = some first ∧
      first.owner = u.owner := by
    intro u hu
    obtain ⟨before, after, rfl⟩ := List.append_of_mem hu
    rw [List.append_cons] at hne
    have hne' : ∀ u' ∈ before ++ [u], u'.entry.promptPrefixHash ≠ "" :=
      fun u' hu' => hne u' (List.mem_append_left _ hu')
    have hbefore : ∀ u' ∈ before, u'.entry.promptPrefixHash ≠ "" :=
      fun u' hu' => hne' u' (List.mem_append_left _ hu')
    have hhead : (upsertsAt (before ++ u :: after) u.entry.promptPrefixHash).head? =
        (upsertsAt before u.entry.promptPrefixHash).head?.or (some u) := by
      have hself : upsertsAt (u :: after) u.entry.promptPrefixHash =
          u :: upsertsAt after u.entry.promptPrefixHash :=
        List.filter_cons_of_pos (by simp)
      rw [upsertsAt, List.filter_append, List.head?_append]
      rw [show (u :: after).filter _ = _ from hself, List.head?_cons]
      rfl
    rw [hhead]
    cases hold : (upsertsAt before u.entry.promptPrefixHash).head? with
    | none => exact ⟨u, rfl, rfl⟩
    | some first =>
      refine ⟨first, rfl, ?_⟩
      by_contra howner
      obtain ⟨hmem, hsame⟩ := mem_upsertsAt.mp (List.mem_of_mem_head? hold)
      obtain ⟨row, hrow⟩ := row_of_mem hbefore hmem
      rw [hsame] at hrow
      obtain ⟨first', -, hfirst', -, hhash, howner', -⟩ := row_spec hbefore hrow
      rw [hold] at hfirst'
      cases hfirst'
      have hin : row ∈ (upsertAll before).values := mem_values_iff.mpr ⟨_, hrow⟩
      have hstay := (h before u after rfl row (by rwa [howner'])).mp hin
      rw [row_mem hne', hhash] at hstay
      exact row_grows hne' hrow hstay
  intro u hu u' hu' hsame
  obtain ⟨first, hhead, howner⟩ := hfirst u hu
  obtain ⟨first', hhead', howner'⟩ := hfirst u' hu'
  rw [hsame, hhead'] at hhead
  cases hhead
  exact howner.symm.trans howner'

theorem separate_iff (hne : ∀ u ∈ us, u.entry.promptPrefixHash ≠ "") :
    Separate us ↔ OneOwner us := by
  refine ⟨oneOwner_of_separate hne, ?_⟩
  rintro hone before u after rfl row howner
  rw [List.append_cons] at hne hone
  have hne' : ∀ u' ∈ before ++ [u], u'.entry.promptPrefixHash ≠ "" :=
    fun u' hu' => hne u' (List.mem_append_left _ hu')
  have hbefore : ∀ u' ∈ before, u'.entry.promptPrefixHash ≠ "" :=
    fun u' hu' => hne' u' (List.mem_append_left _ hu')
  -- A row for the prefix of the upsert is a row of its owner.
  have hother : ∀ us', us' ⊆ before ++ [u] → (∀ u' ∈ us', u'.entry.promptPrefixHash ≠ "") →
      (upsertAll us').get? row.prefixHash = some row →
        row.prefixHash ≠ u.entry.promptPrefixHash := by
    intro us' hsub hus' hrow hsame
    obtain ⟨first, -, hhead, -, -, howner', -⟩ := row_spec hus' hrow
    obtain ⟨hmem, hfirst⟩ := mem_upsertsAt.mp (List.mem_of_mem_head? hhead)
    refine howner (howner'.trans (hone first ?_ u ?_ (hfirst.trans hsame)))
    · exact List.mem_append_left _ (hsub hmem)
    · exact List.mem_append_left _ (List.mem_append_right _ (List.mem_singleton_self u))
  have hu := hne' u (List.mem_append_right _ (List.mem_singleton_self u))
  rw [row_mem hbefore, row_mem hne']
  constructor
  · intro hrow
    rwa [upsertAll_snoc_get? before hu (hother before (List.subset_append_left _ _) hbefore hrow)]
  · intro hrow
    rwa [upsertAll_snoc_get? before hu (hother _ (List.Subset.refl _) hne' hrow)] at hrow

theorem rows_once (hne : ∀ u ∈ us, u.entry.promptPrefixHash ≠ "") :
    ((upsertAll us).values.map fun r => (r.owner, r.prefixHash)).Nodup := by
  have hkeys : (upsertAll us).values.map (·.prefixHash) = (upsertAll us).keys := by
    rw [Dict.values, Dict.keys, List.map_map]
    apply List.map_congr_left
    rintro ⟨hash, row⟩ hmem
    obtain ⟨-, -, -, -, hhash, -⟩ := row_spec hne (Dict.get?_eq_some.mpr hmem)
    exact hhash
  have hnodup : ((upsertAll us).values.map (·.prefixHash)).Nodup := by
    rw [hkeys]
    exact (upsertAll us).nodup
  refine List.Nodup.of_map Prod.snd ?_
  rwa [List.map_map]

theorem refines_iff (hne : ∀ u ∈ us, u.entry.promptPrefixHash ≠ "") (hone : OneOwner us) :
    Refines us (upsertAll us).values ↔ SameTemplates us := by
  constructor
  · intro h hash first last hfirst hlast
    obtain ⟨hmem, rfl⟩ := mem_upsertsAt.mp (List.mem_of_mem_head? hfirst)
    obtain ⟨row, hrow⟩ := row_of_mem hne hmem
    obtain ⟨first', last', hfirst', hlast', hhash, howner, -, hvalues⟩ := row_spec hne hrow
    rw [hfirst] at hfirst'
    cases hfirst'
    obtain ⟨last'', hlast'', hvalues', -⟩ := h.latest row (mem_values_iff.mpr ⟨_, hrow⟩)
    rw [howner, hhash, upsertsOf_eq hone hmem, hlast] at hlast''
    cases hlast''
    rw [hvalues] at hvalues'
    have htokenizer := congrArg CandidateEntry.tokenizerHash hvalues'
    have htemplate := congrArg CandidateEntry.chatTemplateHash hvalues'
    exact ⟨htokenizer, htemplate⟩
  · intro h
    refine ⟨?_, rows_once hne, ?_⟩
    · intro u hu
      obtain ⟨row, hrow⟩ := row_of_mem hne hu
      obtain ⟨first, -, hfirst, -, hhash, howner, -⟩ := row_spec hne hrow
      obtain ⟨hmem, hsame⟩ := mem_upsertsAt.mp (List.mem_of_mem_head? hfirst)
      exact ⟨row, mem_values_iff.mpr ⟨_, hrow⟩, howner.trans (hone first hmem u hu hsame), hhash⟩
    · intro row hrow
      rw [row_mem hne] at hrow
      obtain ⟨first, last, hfirst, hlast, -, howner, hcount, hvalues⟩ := row_spec hne hrow
      obtain ⟨hmem, hsame⟩ := mem_upsertsAt.mp (List.mem_of_mem_head? hfirst)
      obtain ⟨hmem', hsame'⟩ := mem_upsertsAt.mp (List.mem_of_mem_getLast? hlast)
      have hof : upsertsOf us row.owner row.prefixHash = upsertsAt us row.prefixHash := by
        rw [howner, ← hsame]
        exact upsertsOf_eq hone hmem
      refine ⟨last, by rw [hof, hlast], ?_, by rw [hof, hcount]⟩
      obtain ⟨htokenizer, htemplate⟩ := h _ first last hfirst hlast
      have hown := hone first hmem last hmem' (hsame.trans hsame'.symm)
      have hbackend : first.inserted.backend = last.inserted.backend := congrArg Prod.fst hown
      have hmodel : first.inserted.modelId = last.inserted.modelId := congrArg Prod.snd hown
      have hhash : first.inserted.prefixHash = last.inserted.prefixHash :=
        hsame.trans hsame'.symm
      rw [hvalues, htokenizer, htemplate, hbackend, hmodel, hhash]
      rfl

end Rows

/-- The table keeps a row for each owner and prefix exactly if the history is not empty, upserts
each prefix for one owner and ends for each prefix with the templates it began with. -/
theorem durablePerOwner_iff (us : List (Upsert σ))
    (hne : ∀ u ∈ us, u.entry.promptPrefixHash ≠ "") :
    DurablePerOwner us ↔ us ≠ [] ∧ OneOwner us ∧ SameTemplates us := by
  rw [DurablePerOwner, separate_iff hne, durable_stats_iff hne]
  constructor
  · rintro ⟨hrefines, howner, hus⟩
    exact ⟨hus, howner, (refines_iff hne howner).mp hrefines⟩
  · rintro ⟨hus, howner, htemplates⟩
    exact ⟨(refines_iff hne howner).mpr htemplates, howner, hus⟩

/-- An upsert of one prefix for a model. -/
def sighting (hash model : String) : Upsert Nat :=
  { entry := { promptPrefixHash := hash, backend := some "mlx", modelId := some model }
    now := "t" }

theorem durablePerOwner_two :
    DurablePerOwner [sighting "h" "a", sighting "i" "b", sighting "h" "a"] := by
  refine (durablePerOwner_iff _ (by decide)).mpr ⟨by decide, by unfold OneOwner; decide, ?_⟩
  intro hash first last hfirst hlast
  have hplain : ∀ u ∈ [sighting "h" "a", sighting "i" "b", sighting "h" "a"],
      u.entry.tokenizerHash = none ∧ u.entry.chatTemplateHash = none := by decide
  have hmem := (mem_upsertsAt.mp (List.mem_of_mem_head? hfirst)).1
  have hmem' := (mem_upsertsAt.mp (List.mem_of_mem_getLast? hlast)).1
  have hfirst := hplain first hmem
  have hlast := hplain last hmem'
  exact ⟨hfirst.1.trans hlast.1.symm, hfirst.2.trans hlast.2.symm⟩

/-- The second model's candidate is counted on the first model's row. -/
theorem shared_prefix_collapses : ¬ DurablePerOwner [sighting "h" "a", sighting "h" "b"] := by
  rintro ⟨hrefines, -⟩
  obtain ⟨row, hrow, howner, -⟩ := hrefines.seen (sighting "h" "b") (by simp)
  revert howner
  have hall : ∀ r ∈ (upsertAll [sighting "h" "a", sighting "h" "b"]).values,
      r.owner ≠ (sighting "h" "b").owner := by decide +kernel
  exact hall row hrow

end Whooshd.ThreadWake
