import Whooshd.Library.Sql

namespace Whooshd.ThreadWake
set_option autoImplicit true

/-- What `upsert_candidate` reads from an entry. The type `σ` is that of the real columns. -/
structure CandidateEntry (σ : Type) where
  promptPrefixHash : String
  backend : Option String
  modelId : Option String
  tokenizerHash : Option String := none
  chatTemplateHash : Option String := none
  candidateScore : Option σ := none
  candidateConfidence : Option String := none
  potentialSavedTokens : Option Int := none
  potentialSavedRatio : Option σ := none
  selectionReason : Option String := none
  deriving DecidableEq, Repr

/-- A row of `threadwake_candidates`. -/
structure CandidateRow (σ : Type) where
  prefixHash : String
  backend : String
  modelId : String
  tokenizerHash : Option String
  chatTemplateHash : Option String
  candidateScore : Option σ
  candidateConfidence : Option String
  potentialSavedTokens : Option Int
  potentialSavedRatio : Option σ
  candidateSeenCount : Nat
  firstSeenAt : String
  lastSeenAt : String
  selectionReason : Option String
  deriving DecidableEq, Repr

/-- The table, by its primary key. -/
abbrev CandidateTable (σ : Type) : Type := Dict String (CandidateRow σ)

/-- One call, at a time. -/
structure Upsert (σ : Type) where
  entry : CandidateEntry σ
  now : String
  deriving DecidableEq, Repr

structure CandidateStats where
  totalCandidates : Nat
  highConfidence : Option Int
  mediumConfidence : Option Int
  lowConfidence : Option Int
  candidateSeenTotal : Int
  potentialSavedTokensTotal : Int
  deriving DecidableEq, Repr

variable {σ : Type}

namespace Upsert

/-- The row of `VALUES`. -/
def inserted (u : Upsert σ) : CandidateRow σ :=
  { prefixHash := u.entry.promptPrefixHash
    backend := u.entry.backend.getD ""
    modelId := u.entry.modelId.getD ""
    tokenizerHash := u.entry.tokenizerHash
    chatTemplateHash := u.entry.chatTemplateHash
    candidateScore := u.entry.candidateScore
    candidateConfidence := u.entry.candidateConfidence
    potentialSavedTokens := u.entry.potentialSavedTokens
    potentialSavedRatio := u.entry.potentialSavedRatio
    candidateSeenCount := 1
    firstSeenAt := u.now
    lastSeenAt := u.now
    selectionReason := u.entry.selectionReason }

/-- `DO UPDATE SET`. -/
def updated (u : Upsert σ) (row : CandidateRow σ) : CandidateRow σ :=
  let excluded := u.inserted
  { row with
    candidateScore := excluded.candidateScore
    candidateConfidence := excluded.candidateConfidence
    potentialSavedTokens := excluded.potentialSavedTokens
    potentialSavedRatio := excluded.potentialSavedRatio
    candidateSeenCount := row.candidateSeenCount + 1
    lastSeenAt := u.now
    selectionReason := excluded.selectionReason }

end Upsert

def upsertCandidate (table : CandidateTable σ) (u : Upsert σ) : CandidateTable σ :=
  if u.entry.promptPrefixHash = "" then table
  else Sql.upsert table u.entry.promptPrefixHash u.inserted u.updated

def candidateStats (table : CandidateTable σ) : CandidateStats :=
  let rows := table.values
  { totalCandidates := rows.length
    highConfidence :=
      Sql.sum (rows.map fun r => Sql.indicator (r.candidateConfidence = some "high"))
    mediumConfidence :=
      Sql.sum (rows.map fun r => Sql.indicator (r.candidateConfidence = some "medium"))
    lowConfidence := Sql.sum (rows.map fun r => Sql.indicator (r.candidateConfidence = some "low"))
    candidateSeenTotal := Sql.coalesce (Sql.sum (rows.map fun r => some r.candidateSeenCount)) 0
    potentialSavedTokensTotal := Sql.coalesce (Sql.sum (rows.map (·.potentialSavedTokens))) 0 }

def upsertAll (us : List (Upsert σ)) : CandidateTable σ := us.foldl upsertCandidate .empty

/-- The integer counts over some rows, zeros included. -/
def countsOf (rows : List (CandidateRow σ)) : CandidateStats :=
  { totalCandidates := rows.length
    highConfidence := some (rows.countP (·.candidateConfidence = some "high"))
    mediumConfidence := some (rows.countP (·.candidateConfidence = some "medium"))
    lowConfidence := some (rows.countP (·.candidateConfidence = some "low"))
    candidateSeenTotal := (rows.map (·.candidateSeenCount)).sum
    potentialSavedTokensTotal := (rows.filterMap (·.potentialSavedTokens)).sum }

/-- A backend with a model: what the per-model map is divided by. -/
abbrev Owner : Type := String × String

def Upsert.owner (u : Upsert σ) : Owner := (u.inserted.backend, u.inserted.modelId)

def CandidateRow.owner (r : CandidateRow σ) : Owner := (r.backend, r.modelId)

/-- The upserts of one owner for one prefix. -/
def upsertsOf (us : List (Upsert σ)) (owner : Owner) (hash : String) : List (Upsert σ) :=
  us.filter fun u => u.owner = owner ∧ u.entry.promptPrefixHash = hash

/-- The values that an upsert carries. -/
def CandidateRow.values (r : CandidateRow σ) : CandidateEntry σ :=
  { promptPrefixHash := r.prefixHash
    backend := some r.backend
    modelId := some r.modelId
    tokenizerHash := r.tokenizerHash
    chatTemplateHash := r.chatTemplateHash
    candidateScore := r.candidateScore
    candidateConfidence := r.candidateConfidence
    potentialSavedTokens := r.potentialSavedTokens
    potentialSavedRatio := r.potentialSavedRatio
    selectionReason := r.selectionReason }

end Whooshd.ThreadWake
