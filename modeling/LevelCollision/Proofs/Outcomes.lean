import LevelCollision.Level.Basic

namespace LevelCollision

/-!
# Outcomes of walks and look-ups

A walk is a chain of look-ups, each of which may fail. The laws here take such a
chain apart: a chain answers exactly when each of its links does.
-/

section Chains

variable {ε α β : Type}

/-- A chain goes on from an answer. -/
@[simp] theorem ok_bind
    (result : α)
    (next : α → Except ε β) :
    (Except.ok result >>= next) = next result :=
  rfl

/-- A chain ends at an error. -/
@[simp] theorem error_bind
    (error : ε)
    (next : α → Except ε β) :
    (Except.error error >>= next) = .error error :=
  rfl

/-- A chain answers when its first link does and the rest does after it. -/
theorem bind_eq_ok_iff
    {outcome : Except ε α}
    {next : α → Except ε β}
    {result : β} :
    outcome >>= next = .ok result ↔
      ∃ middle, outcome = .ok middle ∧ next middle = .ok result := by
  cases outcome with
  | ok middle =>
      simp
  | error error =>
      simp

/-- A chain fails when its first link does, or the rest does after it. -/
theorem bind_eq_error_iff
    {outcome : Except ε α}
    {next : α → Except ε β}
    {error : ε} :
    outcome >>= next = .error error ↔
      outcome = .error error ∨
        ∃ middle, outcome = .ok middle ∧ next middle = .error error := by
  cases outcome with
  | ok middle =>
      simp
  | error found =>
      simp

/-- Going through a list fails at an entry, with what holds after those before it. -/
theorem exists_error_of_foldlM
    {entries : List α}
    {through : β → α → Except ε β}
    {holds : β → Prop}
    (kept :
      ∀ entry ∈ entries, ∀ before after,
        holds before → through before entry = .ok after → holds after)
    {start : β}
    (first : holds start)
    {error : ε}
    (fails : entries.foldlM through start = .error error) :
    ∃ entry ∈ entries, ∃ before,
      holds before ∧ through before entry = .error error := by
  induction entries generalizing start with
  | nil =>
      cases fails
  | cons entry rest inductionHypothesis =>
      rw [List.foldlM_cons, bind_eq_error_iff] at fails
      rcases fails with failsHere | ⟨middle, passed, failsLater⟩
      · exact ⟨entry, List.mem_cons_self, start, first, failsHere⟩
      · have middleHolds :=
          kept entry List.mem_cons_self start middle first passed
        obtain ⟨other, member, before, beforeHolds, failsThere⟩ :=
          inductionHypothesis
            (fun other member =>
              kept other (List.mem_cons_of_mem entry member))
            middleHolds failsLater
        exact
          ⟨other, List.mem_cons_of_mem entry member, before, beforeHolds,
            failsThere⟩

/-- Going through a list answers when each of its entries does. -/
theorem exists_mapM
    {entries : List α}
    {answer : α → Except ε β}
    (each : ∀ entry ∈ entries, ∃ result, answer entry = .ok result) :
    ∃ results, entries.mapM answer = .ok results := by
  induction entries with
  | nil =>
      exact ⟨[], rfl⟩
  | cons entry rest inductionHypothesis =>
      obtain ⟨first, answered⟩ := each entry List.mem_cons_self
      obtain ⟨others, answeredRest⟩ :=
        inductionHypothesis fun other member =>
          each other (List.mem_cons_of_mem entry member)
      rw [List.mapM_cons, answered, ok_bind, answeredRest, ok_bind]
      exact ⟨first :: others, rfl⟩

/-- Going through a list answers with the answers for its entries. -/
theorem mapM_eq_ok
    {entries : List α}
    {answer : α → Except ε β}
    {expected : α → β}
    (each : ∀ entry ∈ entries, answer entry = .ok (expected entry)) :
    entries.mapM answer = .ok (entries.map expected) := by
  induction entries with
  | nil =>
      rfl
  | cons entry rest inductionHypothesis =>
      have others :=
        inductionHypothesis fun other member =>
          each other (List.mem_cons_of_mem entry member)
      rw [List.mapM_cons, each entry List.mem_cons_self, ok_bind, others,
        ok_bind]
      rfl

/-- What a list is answered with comes from one of its entries. -/
theorem exists_of_mem_mapM
    {entries : List α}
    {answer : α → Except ε β}
    {results : List β}
    (answered : entries.mapM answer = .ok results)
    {result : β}
    (member : result ∈ results) :
    ∃ entry ∈ entries, answer entry = .ok result := by
  induction entries generalizing results with
  | nil =>
      cases answered
      cases member
  | cons entry rest inductionHypothesis =>
      rw [List.mapM_cons] at answered
      obtain ⟨first, answeredFirst, answeredRest⟩ :=
        bind_eq_ok_iff.mp answered
      obtain ⟨others, answeredOthers, shape⟩ :=
        bind_eq_ok_iff.mp answeredRest
      cases shape
      rcases List.mem_cons.mp member with isFirst | inRest
      · subst isFirst
        exact ⟨entry, List.mem_cons_self, answeredFirst⟩
      · obtain ⟨other, inOthers, answeredOther⟩ :=
          inductionHypothesis answeredOthers inRest
        exact ⟨other, List.mem_cons_of_mem entry inOthers, answeredOther⟩

theorem toOption_eq_some_iff
    {outcome : Except ε α}
    {result : α} :
    outcome.toOption = some result ↔ outcome = .ok result := by
  cases outcome with
  | ok found =>
      simp [Except.toOption]
  | error error =>
      simp [Except.toOption]

end Chains

section Lookups

variable {α : Type}

/-- A look-up answers with the entry at the position. -/
theorem lookup_eq_ok_iff
    {entries : Array α}
    {position : Nat}
    {entry : α} :
    lookup entries position = .ok entry ↔
      entries[position]? = some entry := by
  unfold lookup
  cases entries[position]? with
  | none =>
      simp
  | some found =>
      simp

/-- A look-up inside an array answers. -/
theorem lookup_of_lt
    {entries : Array α}
    {position : Nat}
    (inRange : position < entries.size) :
    lookup entries position = .ok entries[position] :=
  lookup_eq_ok_iff.mpr (Array.getElem?_eq_getElem inRange)

/-- A position that a look-up answers for lies inside the array. -/
theorem lt_of_lookup_eq_ok
    {entries : Array α}
    {position : Nat}
    {entry : α}
    (found : lookup entries position = .ok entry) :
    position < entries.size :=
  (Array.getElem?_eq_some_iff.mp (lookup_eq_ok_iff.mp found)).1

/-- What a look-up answers with is an entry of the array. -/
theorem mem_of_lookup_eq_ok
    {entries : Array α}
    {position : Nat}
    {entry : α}
    (found : lookup entries position = .ok entry) :
    entry ∈ entries :=
  Array.mem_of_getElem? (lookup_eq_ok_iff.mp found)

/-- Storing at a position inside an array is no fault. -/
theorem store_of_lt
    {entries : Array α}
    {position : Nat}
    (inRange : position < entries.size)
    (entry : α) :
    store entries position entry =
      .ok (entries.setIfInBounds position entry) :=
  if_pos inRange

/-- A run is answered for when the array has all of its positions. -/
theorem lookupSpan_eq_ok_iff
    {entries : Array α}
    {span : Span}
    {run : List α} :
    lookupSpan entries span = .ok run ↔
      span.stop ≤ entries.size ∧
        (entries.extract span.first span.stop).toList = run := by
  unfold lookupSpan Span.slice?
  by_cases inRange : span.stop ≤ entries.size
  · simp [inRange]
  · simp [inRange]

/-- Entries of a run are those at its positions. -/
theorem mem_lookupSpan_iff
    {entries : Array α}
    {span : Span}
    {run : List α}
    (found : lookupSpan entries span = .ok run)
    {entry : α} :
    entry ∈ run ↔
      ∃ position,
        span.first ≤ position ∧
          position < span.stop ∧
          entries[position]? = some entry := by
  obtain ⟨inRange, rfl⟩ := lookupSpan_eq_ok_iff.mp found
  rw [Array.mem_toList_iff, Array.mem_extract_iff_getElem]
  constructor
  · rintro ⟨step, stepBound, shape⟩
    have bound : span.first + step < span.stop := by
      omega
    refine ⟨span.first + step, Nat.le_add_right _ _, bound, ?_⟩
    rw [← shape]
    exact Array.getElem?_eq_getElem (Nat.lt_of_lt_of_le bound inRange)
  · rintro ⟨position, afterFirst, beforeStop, shape⟩
    obtain ⟨bound, rfl⟩ := Array.getElem?_eq_some_iff.mp shape
    refine ⟨position - span.first, by omega, ?_⟩
    have same : span.first + (position - span.first) = position := by
      omega
    simp only [same]

/-- Entries of a run are entries of the array. -/
theorem mem_of_mem_lookupSpan
    {entries : Array α}
    {span : Span}
    {run : List α}
    {entry : α}
    (found : lookupSpan entries span = .ok run)
    (member : entry ∈ run) :
    entry ∈ entries := by
  obtain ⟨position, _, _, shape⟩ := (mem_lookupSpan_iff found).mp member
  exact Array.mem_of_getElem? shape

end Lookups

end LevelCollision
