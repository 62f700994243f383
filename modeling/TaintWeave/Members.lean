/-!
# Members

Values under keys, in the order in which the keys came: the members of an
object, the fields of a node, the definitions of a namespace.

* `Members.get?`: the value under a key.
* `Members.insert`: a value put in place of the one there, or at the end
  (`get?_insert`).
* `Members.ofPairs`: pairs with each key once (`nodup_keys_insertAll`), at its
  first place and with its last value. Pairs under different keys are members as
  they are (`ofPairs_of_nodup`).
-/

namespace TaintWeave

/-- Values under keys, in order. -/
abbrev Members (α : Type) := List (String × α)

namespace Members

variable {α : Type}

/-- The value under a key, if there is one. -/
def get? (key : String) : Members α → Option α
  | [] => none
  | (k, v) :: rest => if k = key then some v else get? key rest

/-- Whether a key is present. -/
def hasKey (key : String) (members : Members α) : Bool := members.any fun m => m.1 == key

/-- Puts a value under a key: in place of the value there, or at the end. -/
def insert (key : String) (value : α) : Members α → Members α
  | [] => [(key, value)]
  | (k, v) :: rest =>
    if k = key then (key, value) :: rest else (k, v) :: insert key value rest

/-- Puts several values under their keys, one after the other. -/
def insertAll (members more : Members α) : Members α :=
  more.foldl (fun acc m => insert m.1 m.2 acc) members

/-- The members with each key once: at its first place, with its last value. -/
def ofPairs (pairs : List (String × α)) : Members α := insertAll [] pairs

/-- The keys, in order. -/
def keys (members : Members α) : List String := members.map (·.1)

/-! ## Lookup after insertion -/

/-- An insertion changes the value under its own key alone. -/
theorem get?_insert (key k : String) (value : α) (members : Members α) :
    get? k (insert key value members) = if key = k then some value else get? k members := by
  induction members with
  | nil => rfl
  | cons m rest ih =>
    obtain ⟨k', v⟩ := m
    by_cases h : k' = key
    · subst h
      simp only [insert, get?, if_true]
      split <;> rfl
    · simp only [insert, if_neg h, get?, ih]
      by_cases h' : k' = k
      · have : ¬key = k := fun e => h (h'.trans e.symm)
        simp only [if_pos h', if_neg this]
      · simp only [if_neg h']

/-- The keys of members with a first one. -/
theorem keys_cons (m : String × α) (members : Members α) :
    keys (m :: members) = m.1 :: keys members := rfl

/-- The keys after an insertion: a new one comes last. -/
theorem keys_insert (key : String) (value : α) (members : Members α) :
    keys (insert key value members) =
      if key ∈ keys members then keys members else keys members ++ [key] := by
  induction members with
  | nil => rfl
  | cons m rest ih =>
    obtain ⟨k, v⟩ := m
    by_cases h : k = key
    · simp [insert, keys_cons, h]
    · have h' : ¬key = k := fun e => h e.symm
      rw [insert, if_neg h, keys_cons, keys_cons, ih]
      by_cases hkey : key ∈ keys rest
      · rw [if_pos hkey, if_pos (List.mem_cons_of_mem k hkey)]
      · rw [if_neg hkey, if_neg (by simp [h', hkey]), List.cons_append]

/-- An insertion leaves each key there once. -/
theorem nodup_keys_insert {members : Members α} (h : (keys members).Nodup) (key : String)
    (value : α) : (keys (insert key value members)).Nodup := by
  rw [keys_insert]
  split
  · exact h
  · rename_i hkey
    rw [List.nodup_append]
    exact ⟨h, by simp, fun a ha b hb e => hkey (List.mem_singleton.mp hb ▸ e ▸ ha)⟩

/-- Insertions leave each key there once. -/
theorem nodup_keys_insertAll {members : Members α} (h : (keys members).Nodup)
    (more : Members α) : (keys (insertAll members more)).Nodup := by
  induction more generalizing members with
  | nil => exact h
  | cons m rest ih => exact ih (nodup_keys_insert h m.1 m.2)

/-! ## Members under different keys -/

/-- A value under a new key comes last. -/
theorem insert_of_notMem {key : String} {value : α} {members : Members α} (h : key ∉ keys members) :
    insert key value members = members ++ [(key, value)] := by
  induction members with
  | nil => rfl
  | cons m rest ih =>
    rw [keys_cons, List.mem_cons, not_or] at h
    rw [insert, if_neg (Ne.symm h.1), ih h.2, List.cons_append]

/-- Members put under new keys that are all different come last, in their order. -/
theorem insertAll_of_nodup {members more : Members α} (h : (keys (members ++ more)).Nodup) :
    insertAll members more = members ++ more := by
  induction more generalizing members with
  | nil => rw [List.append_nil]; rfl
  | cons m rest ih =>
    have hnew : m.1 ∉ keys members := fun hold => by
      rw [keys, List.map_append, List.nodup_append] at h
      exact h.2.2 m.1 hold m.1 List.mem_cons_self rfl
    have hstep : insertAll members (m :: rest) = insertAll (insert m.1 m.2 members) rest := rfl
    rw [List.append_cons] at h ⊢
    rw [hstep, insert_of_notMem hnew, ih h]

/-- Pairs with different keys are members as they are. -/
theorem ofPairs_of_nodup {pairs : Members α} (h : (keys pairs).Nodup) : ofPairs pairs = pairs :=
  insertAll_of_nodup h

/-- Under a key that is there once, its value is found. -/
theorem get?_of_mem {members : Members α} {key : String} {value : α} (h : (keys members).Nodup)
    (hmem : (key, value) ∈ members) : get? key members = some value := by
  induction members with
  | nil => cases hmem
  | cons m rest ih =>
    rw [keys_cons, List.nodup_cons] at h
    rw [get?]
    rcases List.mem_cons.1 hmem with rfl | hmem
    · rw [if_pos rfl]
    · have hne : m.1 ≠ key := by
        rintro rfl
        exact h.1 (List.mem_map.2 ⟨_, hmem, rfl⟩)
      rw [if_neg hne, ih h.2 hmem]

end Members

end TaintWeave
