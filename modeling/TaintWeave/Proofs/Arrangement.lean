import Mathlib.Data.List.Perm.Lattice
import TaintWeave.Members

/-!
# Members in another order

Members are the same whatever their order, as long as each key is there once. So the members under
some keys may be taken out of others and put in front, in the order of these keys.

* `Members.pick`: the members under some keys, in the order of the keys.
* `Members.pick_append_filter_perm`: the members picked and the others are all members.
* `Members.get?_eq_of_perm`: the order does not matter for what is found.
* `Members.get?_insertAll`, `Members.keys_insertAll`: what is found after several insertions, and in
  which order the keys are.
-/

namespace TaintWeave.Members

variable {α β : Type} {members : Members α} {key : String} {value : α}

/-! ## What is found -/

/-- A value that is found is a member. -/
theorem mem_of_get? (h : get? key members = some value) : (key, value) ∈ members := by
  induction members with
  | nil => simp [get?] at h
  | cons m rest ih =>
    obtain ⟨k, v⟩ := m
    rw [get?] at h
    split at h
    · rename_i hk
      simp_all
    · exact List.mem_cons_of_mem _ (ih h)

/-- Nothing is found under a key that is not there. -/
theorem get?_eq_none_iff : get? key members = none ↔ key ∉ keys members := by
  induction members with
  | nil => simp [get?, keys]
  | cons m rest ih =>
    rw [get?, keys_cons, List.mem_cons]
    split
    · rename_i hk
      simp [hk]
    · rename_i hk
      simp [ih, Ne.symm hk]

/-- A key that is present is among the keys. -/
theorem hasKey_iff_mem : hasKey key members = true ↔ key ∈ keys members := by
  simp [hasKey, keys]

/-- A key is present if something is found under it. -/
theorem hasKey_eq_isSome (key : String) (members : Members α) :
    hasKey key members = (get? key members).isSome := by
  rw [Bool.eq_iff_iff, hasKey_iff_mem, Option.isSome_iff_ne_none, Ne, get?_eq_none_iff, not_not]

/-- Among different keys, a value is found under a key if and only if it is a member. -/
theorem get?_eq_some_iff (h : (keys members).Nodup) :
    get? key members = some value ↔ (key, value) ∈ members :=
  ⟨mem_of_get?, get?_of_mem h⟩

/-- The order of members under different keys does not matter for what is found. -/
theorem get?_eq_of_perm {more : Members α} (h : (keys members).Nodup) (hperm : members.Perm more) :
    get? key more = get? key members := by
  have hmore : (keys more).Nodup := (hperm.map _).nodup_iff.1 h
  ext value
  rw [get?_eq_some_iff hmore, get?_eq_some_iff h, hperm.mem_iff]

/-- What is found in members is found in the first of two parts, or else in the second. -/
theorem get?_append (more : Members α) :
    get? key (members ++ more) = (get? key members).or (get? key more) := by
  induction members with
  | nil => rfl
  | cons m rest ih =>
    rw [List.cons_append, get?, get?]
    split
    · rfl
    · exact ih

/-- What is found among some of the members is found if its key is one of them. -/
theorem get?_filter (p : String → Bool) (members : Members α) :
    get? key (members.filter fun m => p m.1) = if p key then get? key members else none := by
  induction members with
  | nil => simp [get?]
  | cons m rest ih =>
    obtain ⟨k, v⟩ := m
    by_cases hk : k = key
    · subst hk
      by_cases hp : p k = true
      · simp [get?, hp]
      · simp [ih, hp]
    · by_cases hp : p k = true
      · simp [get?, hp, hk, ih]
      · simp [get?, hp, hk, ih]

/-- A value among converted ones is that found before, converted. -/
theorem get?_map (f : String → α → β) :
    get? key (members.map fun m => (m.1, f m.1 m.2)) = (get? key members).map (f key) := by
  induction members with
  | nil => rfl
  | cons m rest ih =>
    simp only [List.map_cons, get?]
    split
    · rename_i hk
      simp [hk]
    · exact ih

/-- Converted values stay under their keys. -/
theorem keys_map (f : String → α → β) :
    keys (members.map fun m => (m.1, f m.1 m.2)) = keys members := by
  simp [keys, Function.comp_def]

/-! ## What is put in -/

/-- The members after an insertion are those before and the new one. -/
theorem mem_of_mem_insert {m : String × α} (h : m ∈ members.insert key value) :
    m = (key, value) ∨ m ∈ members := by
  induction members with
  | nil => exact .inl (List.mem_singleton.1 h)
  | cons first rest ih =>
    rw [insert] at h
    split at h
    · rcases List.mem_cons.1 h with rfl | h
      · exact .inl rfl
      · exact .inr (List.mem_cons_of_mem _ h)
    · rcases List.mem_cons.1 h with rfl | h
      · exact .inr List.mem_cons_self
      · exact (ih h).imp_right (List.mem_cons_of_mem _)

/-- The members after several insertions are those before and new ones. -/
theorem mem_of_mem_insertAll {more : Members α} {m : String × α} (h : m ∈ insertAll members more) :
    m ∈ members ∨ m ∈ more := by
  induction more generalizing members with
  | nil => exact .inl h
  | cons first rest ih =>
    rcases @ih (insert first.1 first.2 members) h with h | h
    · rcases mem_of_mem_insert h with rfl | h
      · exact .inr List.mem_cons_self
      · exact .inl h
    · exact .inr (List.mem_cons_of_mem _ h)

/-- The members made of pairs are among them. -/
theorem mem_of_mem_ofPairs {pairs : List (String × α)} {m : String × α} (h : m ∈ ofPairs pairs) :
    m ∈ pairs := (mem_of_mem_insertAll h).resolve_left List.not_mem_nil

/-- What is found after several insertions are the new values, or else those before. -/
theorem get?_insertAll {more : Members α} (h : (keys more).Nodup) :
    get? key (insertAll members more) = (get? key more).or (get? key members) := by
  induction more generalizing members with
  | nil => rfl
  | cons m rest ih =>
    rw [keys_cons, List.nodup_cons] at h
    have hstep : insertAll members (m :: rest) = insertAll (insert m.1 m.2 members) rest := rfl
    rw [hstep, ih h.2, get?_insert, get?]
    by_cases hkey : m.1 = key
    · subst hkey
      rw [if_pos rfl, if_pos rfl, get?_eq_none_iff.2 h.1, Option.none_or, Option.some_or]
    · rw [if_neg hkey, if_neg hkey]

/-- The keys after several insertions: new ones come last, each at its first place. -/
theorem keys_insertAll (members more : Members α) :
    keys (insertAll members more) =
      keys members ++ ((keys more).filter fun key => !(keys members).contains key).eraseDups := by
  induction more generalizing members with
  | nil => simp [insertAll, keys]
  | cons m rest ih =>
    have hstep : insertAll members (m :: rest) = insertAll (insert m.1 m.2 members) rest := rfl
    rw [hstep, ih, keys_insert, keys_cons]
    by_cases hold : m.1 ∈ keys members
    · rw [if_pos hold, List.filter_cons_of_neg (by simpa using hold)]
    · rw [if_neg hold, List.filter_cons_of_pos (by simpa using hold), List.eraseDups_cons,
        List.filter_filter, List.append_assoc, List.singleton_append]
      congr 4
      funext key
      rw [Bool.eq_iff_iff]
      simp only [List.contains_eq_mem, List.mem_append, List.mem_singleton, Bool.decide_or,
        Bool.not_or, Bool.and_eq_true, Bool.not_eq_true', decide_eq_false_iff_not,
        beq_eq_false_iff_ne, ne_eq]
      tauto

/-- The keys of pairs that are put in are their keys, each at its first place. -/
theorem keys_ofPairs (pairs : List (String × α)) :
    keys (ofPairs pairs) = (keys pairs).eraseDups := by
  have hnew : ((keys pairs).filter fun key => !(keys ([] : Members α)).contains key) =
      keys pairs := List.filter_eq_self.2 fun _ _ => rfl
  rw [ofPairs, keys_insertAll, hnew]
  rfl

/-! ## What is picked -/

/-- The members under those of some keys that are present, in the order of these keys. -/
def pick (order : List String) (members : Members α) : Members α :=
  order.filterMap fun key => (get? key members).map fun value => (key, value)

/-- Members are picked by one list of keys after another. -/
theorem pick_append (order more : List String) :
    pick (order ++ more) members = pick order members ++ pick more members := List.filterMap_append

/-- Nothing is picked without keys. -/
@[simp] theorem pick_nil (members : Members α) : pick [] members = [] := rfl

/-- What is found under a key comes first if this is picked first. -/
@[simp] theorem pick_cons (order : List String) :
    pick (key :: order) members =
      ((get? key members).map fun value => (key, value)).toList ++ pick order members := by
  rw [pick, List.filterMap_cons]
  rcases get? key members with _ | value
  · rfl
  · rfl

/-- The picked members are those under the keys. -/
theorem mem_pick {order : List String} {m : String × α} :
    m ∈ pick order members ↔ m.1 ∈ order ∧ get? m.1 members = some m.2 := by
  obtain ⟨k, v⟩ := m
  simp only [pick, List.mem_filterMap, Option.map_eq_some_iff, Prod.mk.injEq]
  constructor
  · rintro ⟨key, hkey, value, hvalue, rfl, rfl⟩
    exact ⟨hkey, hvalue⟩
  · rintro ⟨hkey, hvalue⟩
    exact ⟨k, hkey, v, hvalue, rfl, rfl⟩

/-- The keys of the picked members are among those they were picked by, in their order. -/
theorem keys_pick_sublist (order : List String) (members : Members α) :
    (keys (pick order members)).Sublist order := by
  induction order with
  | nil => exact .slnil
  | cons key rest ih =>
    rw [pick_cons]
    rcases get? key members with _ | value
    · exact ih.cons key
    · exact ih.cons_cons key

/-- What is found under a key among members made for several keys is the one made for it. -/
theorem get?_filterMap {make : String → Option α} {order : List String} (hkey : key ∈ order) :
    get? key (order.filterMap fun k => (make k).map fun value => (k, value)) = make key := by
  -- A key for which nothing is made may come again, and so the other keys are looked at as well.
  suffices h : ∀ order : List String,
      get? key (order.filterMap fun k => (make k).map fun value => (k, value)) =
        if key ∈ order then make key else none by
    rw [h, if_pos hkey]
  intro order
  induction order with
  | nil => rfl
  | cons k rest ih =>
    by_cases hk : k = key
    · subst hk
      rcases hmake : make k with _ | value
      · simp [hmake, ih]
      · simp [hmake, get?]
    · rcases hmake : make k with _ | value
      · simp [hmake, ih, Ne.symm hk]
      · simp [hmake, get?, hk, ih, Ne.symm hk]

/-- What is found under a key that is picked is what was found before. -/
theorem get?_pick {order : List String} (hkey : key ∈ order) :
    get? key (pick order members) = get? key members := get?_filterMap hkey

/-- Members that are in the order of the keys are picked as they are. -/
theorem pick_eq_self {order : List String} (horder : order.Nodup)
    (h : (keys members).Sublist order) : pick order members = members := by
  induction order generalizing members with
  | nil =>
    rw [List.sublist_nil, keys, List.map_eq_nil_iff] at h
    rw [h, pick_nil]
  | cons key rest ih =>
    rw [List.nodup_cons] at horder
    rw [pick_cons]
    rcases hget : get? key members with _ | value
    · have hkey : key ∉ keys members := get?_eq_none_iff.1 hget
      have hrest : (keys members).Sublist rest := by
        rcases List.sublist_cons_iff.1 h with hrest | ⟨more, hmore, _⟩
        · exact hrest
        · exact absurd (hmore ▸ List.mem_cons_self) hkey
      exact ih horder.2 hrest
    · -- The key is there and comes first, so that it is the first of the members.
      have hmem : key ∈ keys members := List.mem_map.2 ⟨_, mem_of_get? hget, rfl⟩
      rcases members with _ | ⟨⟨k, v⟩, more⟩
      · cases hget
      · rw [keys_cons, List.sublist_cons_iff] at h
        rcases h with h | ⟨_, hcons, hmore⟩
        · exact absurd (h.subset hmem) horder.1
        · obtain ⟨rfl, rfl⟩ := List.cons.inj hcons
          have hpick : pick rest ((k, v) :: more) = pick rest more :=
            List.filterMap_congr fun key hkey => by
              have : k ≠ key := fun heq => horder.1 (heq ▸ hkey)
              rw [get?, if_neg this]
          rw [get?, if_pos rfl] at hget
          rw [hpick, ih horder.2 hmore, ← hget]
          rfl

/-- Members under different keys are picked from members by picking those whose keys are wanted. -/
theorem pick_perm_filter {order : List String} (horder : order.Nodup) (h : (keys members).Nodup) :
    (pick order members).Perm (members.filter fun m => order.contains m.1) := by
  have hpick : (pick order members).Nodup :=
    .of_map _ (horder.sublist (keys_pick_sublist order members))
  refine (List.perm_ext_iff_of_nodup hpick ((List.Nodup.of_map _ h).filter _)).2 fun m => ?_
  rw [mem_pick, get?_eq_some_iff h, List.mem_filter, List.contains_iff_mem, and_comm]

/-- The members picked and the others are all members. -/
theorem pick_append_filter_perm {order : List String} (horder : order.Nodup)
    (h : (keys members).Nodup) :
    (pick order members ++ members.filter fun m => !order.contains m.1).Perm members :=
  ((pick_perm_filter horder h).append_right _).trans (List.filter_append_perm _ members)

/-- Members are picked in their own order by their own keys. -/
theorem pick_filter_keys (h : (keys members).Nodup) (p : String → Bool) :
    pick ((keys members).filter p) members = members.filter fun m => p m.1 := by
  have hmem : ∀ m ∈ members.filter fun m => p m.1,
      ((get? m.1 members).map fun value => (m.1, value)) = some m := fun m hm => by
    rw [get?_of_mem h (List.mem_filter.1 hm).1, Option.map_some]
  rw [pick, keys, List.filter_map, List.filterMap_map]
  exact (List.filterMap_congr hmem).trans List.filterMap_some

end TaintWeave.Members
