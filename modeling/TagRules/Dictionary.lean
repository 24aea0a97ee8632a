/-!
Dictionaries keep the order of their keys: a known key keeps its place, and a new one goes to the end.
-/

set_option autoImplicit false

namespace TagRules

abbrev Dictionary (κ α : Type) := List (κ × α)

namespace Dictionary

variable {κ α : Type} [DecidableEq κ]

def get? (key : κ) : Dictionary κ α → Option α
  | [] => none
  | (k, a) :: rest => if k = key then some a else get? key rest

def put (key : κ) (a : α) : Dictionary κ α → Dictionary κ α
  | [] => [(key, a)]
  | (k, old) :: rest => if k = key then (k, a) :: rest else (k, old) :: put key a rest

def erase (key : κ) : Dictionary κ α → Dictionary κ α
  | [] => []
  | (k, a) :: rest => if k = key then erase key rest else (k, a) :: erase key rest

def keys (d : Dictionary κ α) : List κ := d.map Prod.fst

def values (d : Dictionary κ α) : List α := d.map Prod.snd

def ofList (pairs : List (κ × α)) : Dictionary κ α :=
  pairs.foldl (fun d pair => put pair.1 pair.2 d) []

theorem get_put (key other : κ) (a : α) (d : Dictionary κ α) :
    get? other (put key a d) = if key = other then some a else get? other d := by
  induction d with
  | nil => simp [put, get?]
  | cons entry rest ih =>
    obtain ⟨k, old⟩ := entry
    by_cases h : k = key
    · subst h
      by_cases h' : k = other <;> simp [put, get?, h']
    · by_cases h' : k = other
      · subst h'
        simp [put, get?, h, Ne.symm h]
      · simp [put, get?, h, h', ih]

theorem get_erase (key other : κ) (d : Dictionary κ α) :
    get? other (erase key d) = if key = other then none else get? other d := by
  induction d with
  | nil => simp [erase, get?]
  | cons entry rest ih =>
    obtain ⟨k, a⟩ := entry
    by_cases h : k = key
    · subst h
      by_cases h' : k = other
      · subst h'
        simp [erase, ih]
      · simp [erase, get?, h', ih]
    · by_cases h' : k = other
      · subst h'
        simp [erase, get?, h, Ne.symm h]
      · simp [erase, get?, h, h', ih]

theorem keys_put (key : κ) (a : α) (d : Dictionary κ α) :
    keys (put key a d) = if key ∈ keys d then keys d else keys d ++ [key] := by
  induction d with
  | nil => simp [put, keys]
  | cons entry rest ih =>
    obtain ⟨k, old⟩ := entry
    by_cases h : k = key
    · simp [put, keys, h]
    · have h' : ¬ key = k := fun e => h e.symm
      simp only [put, h, if_false, keys, List.map_cons, List.mem_cons, h', false_or] at ih ⊢
      rw [ih]
      split <;> rename_i known <;> simp [known]

theorem keys_erase (key : κ) (d : Dictionary κ α) :
    keys (erase key d) = (keys d).filter (fun k => decide (k ≠ key)) := by
  induction d with
  | nil => rfl
  | cons entry rest ih =>
    obtain ⟨k, a⟩ := entry
    by_cases h : k = key
    · simpa [erase, keys, h] using ih
    · simpa [erase, keys, h] using ih

theorem mem_put {key : κ} {a : α} {d : Dictionary κ α} {entry : κ × α} (member : entry ∈ put key a d) :
    entry = (key, a) ∨ entry ∈ d := by
  induction d with
  | nil => exact Or.inl (by simpa [put] using member)
  | cons head rest ih =>
    obtain ⟨k, old⟩ := head
    by_cases same : k = key
    · rw [put, if_pos same] at member
      rcases List.mem_cons.mp member with atHead | later
      · exact Or.inl (by rw [atHead, same])
      · exact Or.inr (List.mem_cons_of_mem _ later)
    · rw [put, if_neg same] at member
      rcases List.mem_cons.mp member with atHead | later
      · exact Or.inr (by rw [atHead]; exact List.mem_cons_self)
      · exact (ih later).imp_right (List.mem_cons_of_mem _)

theorem erase_eq_filter (key : κ) (d : Dictionary κ α) :
    erase key d = d.filter fun entry => decide (entry.1 ≠ key) := by
  induction d with
  | nil => rfl
  | cons head rest ih =>
    obtain ⟨k, a⟩ := head
    by_cases same : k = key <;> simp [erase, same, ih]

theorem mem_erase {key : κ} {d : Dictionary κ α} {entry : κ × α} (member : entry ∈ erase key d) :
    entry ∈ d := by
  rw [erase_eq_filter] at member
  exact (List.mem_filter.mp member).1

theorem get_some_iff {d : Dictionary κ α} (distinctKeys : (keys d).Nodup) (key : κ) (a : α) :
    get? key d = some a ↔ (key, a) ∈ d := by
  induction d with
  | nil => simp [get?]
  | cons head rest ih =>
    obtain ⟨k, old⟩ := head
    obtain ⟨fresh, restDistinct⟩ := List.nodup_cons.mp distinctKeys
    by_cases same : k = key
    · subst same
      have absent : (k, a) ∉ rest := fun member => fresh (List.mem_map.mpr ⟨(k, a), member, rfl⟩)
      simp [get?, absent, eq_comm]
    · simp [get?, same, Ne.symm same, ih restDistinct]

theorem mem_keys_iff (key : κ) (d : Dictionary κ α) :
    key ∈ keys d ↔ ∃ a, get? key d = some a := by
  induction d with
  | nil => simp [keys, get?]
  | cons head rest ih =>
    obtain ⟨k, a⟩ := head
    by_cases same : k = key
    · simp [keys, get?, same]
    · simp only [keys, List.map_cons, List.mem_cons, get?, if_neg same] at ih ⊢
      simp [Ne.symm same, ih]

theorem put_fresh (key : κ) (a : α) (d : Dictionary κ α) (fresh : key ∉ keys d) :
    put key a d = d ++ [(key, a)] := by
  induction d with
  | nil => rfl
  | cons head rest ih =>
    obtain ⟨k, old⟩ := head
    obtain ⟨different, later⟩ : key ≠ k ∧ key ∉ keys rest := by simpa [keys] using fresh
    rw [put, if_neg (Ne.symm different), ih later, List.cons_append]

theorem of_distinct_list (pairs : List (κ × α)) (distinctKeys : (keys pairs).Nodup) :
    ofList pairs = pairs := by
  have onto : ∀ d : Dictionary κ α, (keys (d ++ pairs)).Nodup →
      pairs.foldl (fun d pair => put pair.1 pair.2 d) d = d ++ pairs := by
    induction pairs with
    | nil => simp
    | cons pair rest ih =>
      intro d distinctBoth
      have reordered : d ++ pair :: rest = (d ++ [pair]) ++ rest := by simp
      have fresh : pair.1 ∉ keys d := by
        rw [keys, List.map_append, List.nodup_append] at distinctBoth
        exact fun known => distinctBoth.2.2 pair.1 known pair.1 (by simp) rfl
      rw [List.foldl_cons, put_fresh pair.1 pair.2 d fresh, reordered]
      rw [reordered] at distinctBoth
      exact ih (List.nodup_cons.mp distinctKeys).2 (d ++ [pair]) distinctBoth
  exact onto [] distinctKeys

theorem nodup_keys_put (key : κ) (a : α) (d : Dictionary κ α) (distinctKeys : (keys d).Nodup) :
    (keys (put key a d)).Nodup := by
  rw [keys_put]
  by_cases known : key ∈ keys d
  · rw [if_pos known]
    exact distinctKeys
  · rw [if_neg known]
    exact List.nodup_append.mpr ⟨distinctKeys, by simp, by
      intro old listed new same clash
      rw [List.mem_singleton.mp same] at clash
      exact known (clash ▸ listed)⟩

theorem nodup_keys_of_list (pairs : List (κ × α)) : (keys (ofList pairs)).Nodup := by
  have onto : ∀ d : Dictionary κ α, (keys d).Nodup →
      (keys (pairs.foldl (fun d pair => put pair.1 pair.2 d) d)).Nodup := by
    induction pairs with
    | nil => exact fun d distinctKeys => distinctKeys
    | cons pair rest ih =>
      exact fun d distinctKeys => ih _ (nodup_keys_put pair.1 pair.2 d distinctKeys)
  exact onto [] List.nodup_nil

theorem mem_of_list {pairs : List (κ × α)} {entry : κ × α} (member : entry ∈ ofList pairs) :
    entry ∈ pairs := by
  have onto : ∀ d : Dictionary κ α,
      entry ∈ pairs.foldl (fun d pair => put pair.1 pair.2 d) d → entry ∈ d ∨ entry ∈ pairs := by
    clear member
    induction pairs with
    | nil => exact fun d member => .inl member
    | cons pair rest ih =>
      intro d member
      rcases ih (put pair.1 pair.2 d) member with early | later
      · rcases mem_put early with rfl | known
        · exact .inr List.mem_cons_self
        · exact .inl known
      · exact .inr (List.mem_cons_of_mem pair later)
  exact (onto [] member).resolve_left List.not_mem_nil

theorem count_put (p : κ × α → Bool) (key : κ) (a : α) (d : Dictionary κ α) :
    (put key a d).countP p + ((get? key d).map fun old => (p (key, old)).toNat).getD 0 =
      d.countP p + (p (key, a)).toNat := by
  induction d with
  | nil => cases kind : p (key, a) <;> simp [put, get?, kind]
  | cons head rest ih =>
    obtain ⟨k, old⟩ := head
    by_cases same : k = key
    · subst same
      cases wasKind : p (k, old) <;> cases kind : p (k, a) <;>
        simp [put, get?, wasKind, kind]
    · simp only [put, get?, if_neg same, List.countP_cons]
      omega

theorem count_erase (p : κ × α → Bool) (key : κ) (d : Dictionary κ α)
    (distinctKeys : (keys d).Nodup) :
    (erase key d).countP p + ((get? key d).map fun old => (p (key, old)).toNat).getD 0 =
      d.countP p := by
  induction d with
  | nil => rfl
  | cons head rest ih =>
    obtain ⟨k, old⟩ := head
    obtain ⟨fresh, restDistinct⟩ := List.nodup_cons.mp distinctKeys
    by_cases same : k = key
    · subst same
      have untouched : erase k rest = rest := by
        rw [erase_eq_filter]
        apply List.filter_eq_self.mpr
        intro entry member
        have different : entry.1 ≠ k :=
          fun clash => fresh (clash ▸ List.mem_map.mpr ⟨entry, member, rfl⟩)
        simp [different]
      cases wasKind : p (k, old) <;> simp [erase, get?, untouched, wasKind]
    · have later := ih restDistinct
      simp only [erase, get?, if_neg same, List.countP_cons]
      omega

theorem filter_put (p : κ → Bool) (key : κ) (a : α) (d : Dictionary κ α) (apart : p key = false) :
    (put key a d).filter (fun entry => p entry.1) = d.filter fun entry => p entry.1 := by
  induction d with
  | nil => simp [put, apart]
  | cons head rest ih =>
    obtain ⟨k, old⟩ := head
    by_cases same : k = key
    · simp [put, same, apart]
    · simp [put, same, List.filter_cons, ih]

theorem filter_erase (p : κ → Bool) (key : κ) (d : Dictionary κ α) (apart : p key = false) :
    (erase key d).filter (fun entry => p entry.1) = d.filter fun entry => p entry.1 := by
  rw [erase_eq_filter, List.filter_filter]
  apply List.filter_congr
  intro entry _
  by_cases same : entry.1 = key <;> simp [same, apart]

theorem filter_put_within (p : κ → Bool) (key : κ) (a : α) (d : Dictionary κ α)
    (within : p key = true) :
    (put key a d).filter (fun entry => p entry.1) = put key a (d.filter fun entry => p entry.1) := by
  induction d with
  | nil => simp [put, within]
  | cons head rest ih =>
    obtain ⟨k, old⟩ := head
    by_cases same : k = key
    · simp [put, same, within]
    · by_cases passes : p k = true <;> simp [put, same, passes, ih]

theorem filter_erase_within (p : κ → Bool) (key : κ) (d : Dictionary κ α) :
    (erase key d).filter (fun entry => p entry.1) = erase key (d.filter fun entry => p entry.1) := by
  simp only [erase_eq_filter, List.filter_filter, Bool.and_comm]

theorem get_filter (p : κ → Bool) (key : κ) (d : Dictionary κ α) (within : p key = true) :
    get? key (d.filter fun entry => p entry.1) = get? key d := by
  induction d with
  | nil => rfl
  | cons head rest ih =>
    obtain ⟨k, a⟩ := head
    by_cases same : k = key
    · simp [get?, same, within]
    · by_cases passes : p k = true <;> simp [get?, same, passes, ih]

end Dictionary

theorem erase_dups_filter {α : Type} [DecidableEq α] (p : α → Bool) (xs : List α) :
    (xs.filter p).eraseDups = xs.eraseDups.filter p := by
  match xs with
  | [] => rfl
  | a :: rest =>
    have shorter := rest.length_filter_le fun b => !b == a
    rw [List.eraseDups_cons]
    by_cases passes : p a = true
    · rw [List.filter_cons_of_pos passes, List.filter_cons_of_pos passes, List.eraseDups_cons,
        ← erase_dups_filter p (rest.filter fun b => !b == a), List.filter_filter, List.filter_filter]
      simp only [Bool.and_comm]
    · rw [List.filter_cons_of_neg passes, List.filter_cons_of_neg passes,
        ← erase_dups_filter p (rest.filter fun b => !b == a), List.filter_filter]
      congr 1
      refine List.filter_congr fun b _ => ?_
      by_cases same : b = a <;> simp_all
termination_by xs.length

theorem erase_dups_cons {α : Type} [DecidableEq α] (a : α) (rest : List α) :
    (a :: rest).eraseDups = a :: rest.eraseDups.filter fun b => decide (b ≠ a) := by
  rw [List.eraseDups_cons, erase_dups_filter]
  congr 2
  funext b
  by_cases same : b = a <;> simp [same]

theorem nodup_erase_dups {α : Type} [DecidableEq α] (xs : List α) : xs.eraseDups.Nodup := by
  induction xs with
  | nil => exact List.nodup_nil
  | cons a rest ih =>
    rw [erase_dups_cons]
    exact List.nodup_cons.mpr ⟨by simp, ih.filter _⟩

theorem erase_dups_of_nodup {α : Type} [DecidableEq α] (xs : List α) (once : xs.Nodup) :
    xs.eraseDups = xs := by
  induction xs with
  | nil => rfl
  | cons a rest ih =>
    obtain ⟨fresh, later⟩ := List.nodup_cons.mp once
    rw [erase_dups_cons, ih later, List.filter_eq_self.mpr]
    intro b member
    exact decide_eq_true fun same => fresh (same ▸ member)

theorem erase_dups_snoc {α : Type} [DecidableEq α] (xs : List α) (a : α) :
    (xs ++ [a]).eraseDups = if a ∈ xs then xs.eraseDups else xs.eraseDups ++ [a] := by
  rw [List.eraseDups_append]
  split <;> rename_i listed <;> simp [List.removeAll, erase_dups_cons, listed]

end TagRules
