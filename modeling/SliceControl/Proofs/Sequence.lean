import Mathlib.Data.List.Nodup

/-!
# Sequences that may fail

A computation that may fail succeeds just if each of its parts does. The lemmas take the results of
sequences and of lists apart, and put them together. A search through a list may fail, too: it finds
an item by its key if the keys of the items are distinct.
-/

namespace SliceControl

variable {ε α β : Type}

theorem bind_eq_ok_iff {first : Except ε α} {next : α → Except ε β} {result : β} :
    (first >>= next) = .ok result ↔ ∃ value, first = .ok value ∧ next value = .ok result := by
  cases first with
  | error error => simp [bind, Except.bind]
  | ok value => simp [bind, Except.bind]

theorem bind_eq_error_iff {first : Except ε α} {next : α → Except ε β} {error : ε} :
    (first >>= next) = .error error ↔
      first = .error error ∨ ∃ value, first = .ok value ∧ next value = .error error := by
  cases first with
  | error error => simp [bind, Except.bind]
  | ok value => simp [bind, Except.bind]

theorem map_eq_ok_iff {f : α → β} {first : Except ε α} {result : β} :
    first.map f = .ok result ↔ ∃ value, first = .ok value ∧ f value = result := by
  cases first <;> simp [Except.map]

theorem map_eq_error_iff {f : α → β} {first : Except ε α} {error : ε} :
    first.map f = .error error ↔ first = .error error := by
  cases first <;> simp [Except.map]

theorem mapError_eq_ok_iff {δ : Type} {rename : ε → δ} {first : Except ε α} {result : α} :
    first.mapError rename = .ok result ↔ first = .ok result := by
  cases first <;> simp [Except.mapError]

theorem mapM_cons_eq_ok_iff {f : α → Except ε β} {item : α} {rest : List α} {results : List β} :
    (item :: rest).mapM f = .ok results ↔ ∃ first others, f item = .ok first ∧
      rest.mapM f = .ok others ∧ results = first :: others := by
  rw [List.mapM_cons]
  constructor
  · intro h
    obtain ⟨first, hfirst, htail⟩ := bind_eq_ok_iff.mp h
    obtain ⟨others, hothers, hresults⟩ := bind_eq_ok_iff.mp htail
    cases hresults
    exact ⟨first, others, hfirst, hothers, rfl⟩
  · rintro ⟨first, others, hfirst, hothers, rfl⟩
    rw [hfirst, hothers]
    rfl

theorem exists_of_mem_mapM {f : α → Except ε β} {items : List α} {results : List β}
    (h : items.mapM f = .ok results) {result : β} (hmem : result ∈ results) :
    ∃ item ∈ items, f item = .ok result := by
  induction items generalizing results with
  | nil =>
    cases h
    exact absurd hmem List.not_mem_nil
  | cons item rest ih =>
    obtain ⟨first, others, hfirst, hothers, rfl⟩ := mapM_cons_eq_ok_iff.mp h
    rcases List.mem_cons.mp hmem with rfl | hmem
    · exact ⟨item, List.mem_cons_self, hfirst⟩
    · obtain ⟨found, hfound, hvalue⟩ := ih hothers hmem
      exact ⟨found, List.mem_cons_of_mem _ hfound, hvalue⟩

/-- Every item of a list that succeeds does. -/
theorem exists_of_mapM_eq_ok {f : α → Except ε β} {items : List α} {results : List β}
    (h : items.mapM f = .ok results) {item : α} (hmem : item ∈ items) :
    ∃ result ∈ results, f item = .ok result := by
  induction items generalizing results with
  | nil => exact absurd hmem List.not_mem_nil
  | cons head rest ih =>
    obtain ⟨first, others, hfirst, hothers, rfl⟩ := mapM_cons_eq_ok_iff.mp h
    rcases List.mem_cons.mp hmem with rfl | hmem
    · exact ⟨first, List.mem_cons_self, hfirst⟩
    · obtain ⟨found, hfound, hvalue⟩ := ih hothers hmem
      exact ⟨found, List.mem_cons_of_mem _ hfound, hvalue⟩

theorem length_of_mapM_eq_ok {f : α → Except ε β} {items : List α} {results : List β}
    (h : items.mapM f = .ok results) : results.length = items.length := by
  induction items generalizing results with
  | nil =>
    cases h
    rfl
  | cons head rest ih =>
    obtain ⟨first, others, -, hothers, rfl⟩ := mapM_cons_eq_ok_iff.mp h
    rw [List.length_cons, List.length_cons, ih hothers]

/-- Results stand at the positions of what they come from. -/
theorem exists_getElem?_of_mapM_eq_ok {f : α → Except ε β} {items : List α} {results : List β}
    (h : items.mapM f = .ok results) {index : Nat} {item : α} (hitem : items[index]? = some item) :
    ∃ result, results[index]? = some result ∧ f item = .ok result := by
  induction items generalizing results index with
  | nil => cases hitem
  | cons head rest ih =>
    obtain ⟨first, others, hfirst, hothers, rfl⟩ := mapM_cons_eq_ok_iff.mp h
    cases index with
    | zero =>
      cases hitem
      exact ⟨first, rfl, hfirst⟩
    | succ index => exact ih hothers hitem

/-- Items and results correspond one to one. -/
theorem forall₂_of_mapM_eq_ok {f : α → Except ε β} {items : List α} {results : List β}
    (h : items.mapM f = .ok results) :
    List.Forall₂ (fun item result ↦ f item = .ok result) items results := by
  induction items generalizing results with
  | nil =>
    cases h
    exact .nil
  | cons head rest ih =>
    obtain ⟨first, others, hfirst, hothers, rfl⟩ := mapM_cons_eq_ok_iff.mp h
    exact .cons hfirst (ih hothers)

/-- If each result tells what it comes from, so do all of them together. -/
theorem map_of_mapM_eq_ok {f : α → Except ε β} {g : β → α} {items : List α} {results : List β}
    (h : items.mapM f = .ok results)
    (hback : ∀ item result, f item = .ok result → g result = item) : results.map g = items := by
  induction items generalizing results with
  | nil =>
    cases h
    rfl
  | cons head rest ih =>
    obtain ⟨first, others, hfirst, hothers, rfl⟩ := mapM_cons_eq_ok_iff.mp h
    rw [List.map_cons, hback head first hfirst, ih hothers]

/-- A list succeeds just if each of its items does. -/
theorem exists_mapM_eq_ok_iff {f : α → Except ε β} {items : List α} :
    (∃ results, items.mapM f = .ok results) ↔ ∀ item ∈ items, ∃ result, f item = .ok result := by
  induction items with
  | nil => simp [pure, Except.pure]
  | cons head rest ih =>
    rw [List.forall_mem_cons, ← ih]
    simp only [mapM_cons_eq_ok_iff]
    constructor
    · intro h
      obtain ⟨results, first, others, hfirst, hothers, -⟩ := h
      exact ⟨⟨first, hfirst⟩, others, hothers⟩
    · intro h
      obtain ⟨⟨first, hfirst⟩, others, hothers⟩ := h
      exact ⟨first :: others, first, others, hfirst, hothers, rfl⟩

/-- A list fails as the first of its items that fails. -/
theorem mapM_eq_error_iff {f : α → Except ε β} {items : List α} {error : ε} :
    items.mapM f = .error error ↔ ∃ before item after, items = before ++ item :: after ∧
      (∀ earlier ∈ before, ∃ result, f earlier = .ok result) ∧ f item = .error error := by
  induction items with
  | nil => simp [pure, Except.pure]
  | cons head rest ih =>
    rw [List.mapM_cons, bind_eq_error_iff]
    constructor
    · intro h
      rcases h with hhead | ⟨first, hfirst, htail⟩
      · exact ⟨[], head, rest, rfl, by simp, hhead⟩
      · rcases bind_eq_error_iff.mp htail with hrest | ⟨others, -, hpure⟩
        · obtain ⟨before, item, after, rfl, hbefore, hitem⟩ := ih.mp hrest
          exact ⟨head :: before, item, after, rfl,
            List.forall_mem_cons.mpr ⟨⟨first, hfirst⟩, hbefore⟩, hitem⟩
        · cases hpure
    · intro h
      obtain ⟨before, item, after, hitems, hbefore, hitem⟩ := h
      cases before with
      | nil =>
        cases hitems
        exact .inl hitem
      | cons first others =>
        cases hitems
        obtain ⟨⟨result, hresult⟩, hothers⟩ := List.forall_mem_cons.mp hbefore
        have hrest : (others ++ item :: after).mapM f = .error error :=
          ih.mpr ⟨others, item, after, rfl, hothers, hitem⟩
        exact .inr ⟨result, hresult, bind_eq_error_iff.mpr (.inl hrest)⟩

/-- The item at which a list fails has a position, and the items at all earlier ones succeed. -/
theorem mapM_eq_error_iff_getElem? {f : α → Except ε β} {items : List α} {error : ε} :
    items.mapM f = .error error ↔ ∃ (index : Nat) (item : α), items[index]? = some item ∧
      (∀ position < index, ∀ earlier, items[position]? = some earlier →
        ∃ result, f earlier = .ok result) ∧ f item = .error error := by
  rw [mapM_eq_error_iff]
  constructor
  · intro h
    obtain ⟨before, item, after, rfl, hbefore, hitem⟩ := h
    refine ⟨before.length, item, by simp, ?_, hitem⟩
    intro position hposition earlier hearlier
    rw [List.getElem?_append_left hposition] at hearlier
    exact hbefore earlier (List.mem_of_getElem? hearlier)
  · intro h
    obtain ⟨index, item, hget, hbefore, hitem⟩ := h
    obtain ⟨hindex, rfl⟩ := List.getElem?_eq_some_iff.mp hget
    refine ⟨items.take index, items[index], items.drop (index + 1), ?_, ?_, hitem⟩
    · rw [List.getElem_cons_drop, List.take_append_drop]
    · intro earlier hearlier
      obtain ⟨position, hposition, rfl⟩ := List.mem_take_iff_getElem.mp hearlier
      have hlt : position < index ∧ position < items.length := Nat.lt_min.mp hposition
      exact hbefore position hlt.1 _ (List.getElem?_eq_getElem hlt.2)

/-- A list that fails does so as one of its items does. -/
theorem exists_of_mapM_eq_error {f : α → Except ε β} {items : List α} {error : ε}
    (h : items.mapM f = .error error) : ∃ item ∈ items, f item = .error error := by
  obtain ⟨before, item, after, rfl, -, hitem⟩ := mapM_eq_error_iff.mp h
  exact ⟨item, List.mem_append_right before List.mem_cons_self, hitem⟩

theorem mapM_congr_of_mem {f g : α → Except ε β} {items : List α}
    (h : ∀ item ∈ items, f item = g item) : items.mapM f = items.mapM g := by
  induction items with
  | nil => rfl
  | cons item rest ih =>
    rw [List.mapM_cons, List.mapM_cons, h item List.mem_cons_self,
      ih fun other hother ↦ h other (List.mem_cons_of_mem _ hother)]

/-- Where every item succeeds, so does the list. -/
theorem mapM_eq_ok_of_mem {f : α → Except ε β} {g : α → β} {items : List α}
    (h : ∀ item ∈ items, f item = .ok (g item)) : items.mapM f = .ok (items.map g) := by
  induction items with
  | nil => rfl
  | cons item rest ih =>
    have hrest := ih fun other hother ↦ h other (List.mem_cons_of_mem _ hother)
    exact mapM_cons_eq_ok_iff.mpr ⟨_, _, h item List.mem_cons_self, hrest, rfl⟩

/-! ## Looking up by a key -/

/-- Where no two items have the same key, each of them is found by its own. -/
theorem find?_eq_some_iff_of_nodup [DecidableEq β] {key : α → β} {items : List α}
    (hkeys : (items.map key).Nodup) {wanted : β} {item : α} :
    items.find? (key · = wanted) = some item ↔ item ∈ items ∧ key item = wanted := by
  constructor
  · intro hfound
    exact ⟨List.mem_of_find?_eq_some hfound, by simpa using List.find?_some hfound⟩
  · rintro ⟨hmem, rfl⟩
    cases hfound : items.find? (key · = key item) with
    | none => exact absurd (List.find?_eq_none.mp hfound item hmem) (by simp)
    | some other =>
      have hother : other ∈ items := List.mem_of_find?_eq_some hfound
      have hkey : key other = key item := by simpa using List.find?_some hfound
      rw [List.inj_on_of_nodup_map hkeys hother hmem hkey]

end SliceControl
