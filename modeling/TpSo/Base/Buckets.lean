import Mathlib.Data.List.Flatten
import Mathlib.Data.Nat.Basic

/-!
# Buckets of a chained hash table

The buckets are lists, and an element is in the bucket of its hash modulo their number. What can be
seen of a table is, for each hash, the list of the elements with it: moving the elements to another
number of buckets leaves every such list as it was.
-/

namespace TpSo

universe u
variable {α : Type u}

theorem filter_flatten_eq {p : α → Bool} {xss : List (List α)} {j : ℕ}
    (h : ∀ i xs, xss[i]? = some xs → i ≠ j → xs.filter p = []) :
    xss.flatten.filter p = (xss.getD j []).filter p := by
  induction xss generalizing j with
  | nil => rfl
  | cons xs xss ih =>
    rw [List.flatten_cons, List.filter_append]
    cases j with
    | zero =>
      have hrest : xss.flatten.filter p = [] := by
        rw [List.filter_flatten, List.flatten_eq_nil_iff]
        intro ys hys
        obtain ⟨zs, hzs, rfl⟩ := List.mem_map.mp hys
        obtain ⟨i, hi⟩ := List.mem_iff_getElem?.mp hzs
        exact h (i + 1) zs (by simpa using hi) (by omega)
      rw [hrest, List.append_nil]
      rfl
    | succ j =>
      have hrest := ih (j := j) fun i ys hi hne => h (i + 1) ys (by simpa using hi) (by omega)
      rw [h 0 xs rfl (by omega), List.nil_append, hrest]
      rfl

theorem filter_eraseP_eq {f : α → ℕ} (xs : List α) (j k : ℕ) :
    (xs.eraseP (f · = k)).filter (f · = j) =
      if j = k then (xs.filter (f · = k)).tail else xs.filter (f · = j) := by
  induction xs with
  | nil => simp
  | cons a xs ih =>
    by_cases ha : f a = k
    · rw [List.eraseP_cons_of_pos (by simpa using ha)]
      split
      · next hj => simp [ha, hj]
      · next hj => simp [ha, Ne.symm hj]
    · rw [List.eraseP_cons_of_neg (by simpa using ha), List.filter_cons, List.filter_cons, ih]
      by_cases hj : j = k
      · simp [ha, hj]
      · simp [hj, List.filter_cons]

namespace Buckets

variable {hash : α → ℕ} {buckets : List (List α)} {a : α} {i j k n : ℕ} {xs : List α}

/-- The bucket of a hash. -/
def bucket (buckets : List (List α)) (k : ℕ) : List α := buckets.getD (k % buckets.length) []

def Placed (hash : α → ℕ) (buckets : List (List α)) : Prop :=
  ∀ i xs, buckets[i]? = some xs → ∀ a ∈ xs, hash a % buckets.length = i

/-- The elements with one hash, in their order. -/
def withHash (hash : α → ℕ) (buckets : List (List α)) (k : ℕ) : List α :=
  buckets.flatten.filter (hash · = k)

/-- The buckets in use. -/
def busy (buckets : List (List α)) : ℕ := buckets.countP (· ≠ [])

/-- An element comes last in its bucket. -/
def place (hash : α → ℕ) (buckets : List (List α)) (a : α) : List (List α) :=
  buckets.set (hash a % buckets.length) (bucket buckets (hash a) ++ [a])

theorem Placed.withHash_eq (h : Placed hash buckets) (k : ℕ) :
    withHash hash buckets k = (bucket buckets k).filter (hash · = k) := by
  refine filter_flatten_eq fun i xs hi hne => List.filter_eq_nil_iff.mpr fun a ha => ?_
  simp only [decide_eq_true_eq]
  rintro rfl
  exact hne (h i xs hi a ha).symm

theorem Placed.set (h : Placed hash buckets) (hxs : ∀ a ∈ xs, hash a % buckets.length = i) :
    Placed hash (buckets.set i xs) := by
  intro j ys hj a ha
  rw [List.length_set]
  rw [List.getElem?_set] at hj
  split at hj
  · next hij =>
    split at hj
    · obtain rfl := Option.some.inj hj
      exact hij ▸ hxs a ha
    · cases hj
  · exact h j ys hj a ha

theorem Placed.of_mem_bucket (h : Placed hash buckets) (ha : a ∈ bucket buckets k) :
    hash a % buckets.length = k % buckets.length := by
  unfold bucket at ha
  rw [List.getD_eq_getElem?_getD] at ha
  rcases he : buckets[k % buckets.length]? with - | ys
  · rw [he] at ha
    cases ha
  · rw [he] at ha
    exact h _ ys he a ha

theorem bucket_set (hpos : 0 < buckets.length) :
    bucket (buckets.set (k % buckets.length) xs) j =
      if j % buckets.length = k % buckets.length then xs else bucket buckets j := by
  have hlt := Nat.mod_lt j hpos
  unfold bucket
  rw [List.length_set, List.getD_eq_getElem?_getD, List.getElem?_set]
  split
  · next heq => rw [if_pos (by rw [heq]; exact hlt), if_pos heq.symm, Option.getD_some]
  · next hne => rw [if_neg fun he => hne he.symm, List.getD_eq_getElem?_getD]

/-- What a new list in the bucket of `k` changes for each hash. -/
theorem Placed.withHash_set (h : Placed hash buckets) (hpos : 0 < buckets.length)
    (hxs : ∀ a ∈ xs, hash a % buckets.length = k % buckets.length) (j : ℕ) :
    withHash hash (buckets.set (k % buckets.length) xs) j =
      if j % buckets.length = k % buckets.length then xs.filter (hash · = j)
      else withHash hash buckets j := by
  rw [(h.set hxs).withHash_eq, bucket_set hpos, h.withHash_eq]
  split <;> rfl

theorem Placed.place (h : Placed hash buckets) : Placed hash (place hash buckets a) := by
  refine h.set fun b hb => ?_
  rcases List.mem_append.mp hb with hb | hb
  · exact h.of_mem_bucket hb
  · rw [List.mem_singleton.mp hb]

theorem withHash_place (h : Placed hash buckets) (hpos : 0 < buckets.length) (j : ℕ) :
    withHash hash (place hash buckets a) j =
      withHash hash buckets j ++ if hash a = j then [a] else [] := by
  have hxs : ∀ b ∈ bucket buckets (hash a) ++ [a],
      hash b % buckets.length = hash a % buckets.length := by
    intro b hb
    rcases List.mem_append.mp hb with hb | hb
    · exact h.of_mem_bucket hb
    · rw [List.mem_singleton.mp hb]
  rw [Buckets.place, h.withHash_set hpos hxs]
  split
  · next heq =>
    have hb : bucket buckets j = bucket buckets (hash a) := by rw [bucket, heq, bucket]
    rw [List.filter_append, h.withHash_eq, hb]
    by_cases hj : hash a = j <;> simp [hj]
  · next hne =>
    have hj : hash a ≠ j := by
      rintro rfl
      exact hne rfl
    rw [if_neg hj, List.append_nil]

def drop (hash : α → ℕ) (buckets : List (List α)) (k : ℕ) : List (List α) :=
  buckets.set (k % buckets.length) ((bucket buckets k).eraseP (hash · = k))

theorem Placed.of_mem_eraseP (h : Placed hash buckets)
    (ha : a ∈ (bucket buckets k).eraseP (hash · = k)) :
    hash a % buckets.length = k % buckets.length := h.of_mem_bucket (List.mem_of_mem_eraseP ha)

theorem Placed.drop (h : Placed hash buckets) : Placed hash (drop hash buckets k) :=
  h.set fun _ ha => h.of_mem_eraseP ha

theorem withHash_drop (h : Placed hash buckets) (hpos : 0 < buckets.length) (j k : ℕ) :
    withHash hash (drop hash buckets k) j =
      if j = k then (withHash hash buckets k).tail else withHash hash buckets j := by
  rw [Buckets.drop, h.withHash_set hpos fun _ ha => h.of_mem_eraseP ha, filter_eraseP_eq]
  split
  · next heq =>
    have hb : bucket buckets j = bucket buckets k := by rw [bucket, heq, bucket]
    rw [h.withHash_eq, h.withHash_eq, hb]
  · next hne =>
    have hj : j ≠ k := by
      rintro rfl
      exact hne rfl
    rw [if_neg hj]

@[simp] theorem length_drop : (drop hash buckets k).length = buckets.length := List.length_set

@[simp] theorem length_place : (place hash buckets a).length = buckets.length := List.length_set

theorem busy_set (xs : List α) (hi : i < buckets.length) :
    busy (buckets.set i xs) + (if buckets.getD i [] = [] then 0 else 1) =
      busy buckets + (if xs = [] then 0 else 1) := by
  induction buckets generalizing i with
  | nil => cases hi
  | cons ys buckets ih =>
    cases i with
    | zero => by_cases hy : ys = [] <;> by_cases hx : xs = [] <;> simp [busy, hy, hx]
    | succ i =>
      have hrest := ih (i := i) (by simpa using hi)
      unfold busy at hrest ⊢
      rw [List.set_cons_succ, List.countP_cons, List.countP_cons, List.getD_cons_succ]
      omega

theorem length_flatten_set (xs : List α) (hi : i < buckets.length) :
    (buckets.set i xs).flatten.length + (buckets.getD i []).length =
      buckets.flatten.length + xs.length := by
  induction buckets generalizing i with
  | nil => cases hi
  | cons ys buckets ih =>
    cases i with
    | zero => simp; omega
    | succ i =>
      have hrest := ih (i := i) (by simpa using hi)
      rw [List.set_cons_succ, List.flatten_cons, List.flatten_cons, List.getD_cons_succ,
        List.length_append, List.length_append]
      omega

theorem length_flatten_place (hpos : 0 < buckets.length) :
    (place hash buckets a).flatten.length = buckets.flatten.length + 1 := by
  have hset := length_flatten_set (bucket buckets (hash a) ++ [a])
    (Nat.mod_lt (hash a) hpos)
  rw [List.length_append, List.length_singleton, bucket] at hset
  unfold place bucket
  omega

theorem length_flatten_drop (hpos : 0 < buckets.length) (h : Placed hash buckets)
    (ha : a ∈ withHash hash buckets k) :
    (drop hash buckets k).flatten.length + 1 = buckets.flatten.length := by
  rw [h.withHash_eq, List.mem_filter] at ha
  have hset := length_flatten_set ((bucket buckets k).eraseP (hash · = k))
    (Nat.mod_lt k hpos)
  rw [List.length_eraseP_of_mem ha.1 ha.2] at hset
  have hmem := List.length_pos_of_mem ha.1
  unfold drop bucket at *
  omega

theorem placed_replicate (hash : α → ℕ) (n : ℕ) : Placed hash (List.replicate n []) := by
  intro i xs hi a ha
  rw [List.getElem?_replicate] at hi
  split at hi
  · obtain rfl := Option.some.inj hi
    cases ha
  · cases hi

theorem foldl_place (as : List α) (h : Placed hash buckets) (hpos : 0 < buckets.length) :
    Placed hash (as.foldl (place hash) buckets) ∧
      (as.foldl (place hash) buckets).length = buckets.length ∧
      ∀ j, withHash hash (as.foldl (place hash) buckets) j =
        withHash hash buckets j ++ as.filter (hash · = j) := by
  induction as generalizing buckets with
  | nil => exact ⟨h, rfl, fun j => (List.append_nil _).symm⟩
  | cons a as ih =>
    obtain ⟨hplaced, hlen, hsame⟩ := ih (h.place (a := a)) (by rwa [length_place])
    refine ⟨hplaced, hlen.trans length_place, fun j => ?_⟩
    rw [List.foldl_cons, hsame j, withHash_place h hpos, List.append_assoc]
    by_cases hj : hash a = j <;> simp [hj]

/-- Another number of buckets for the same elements. -/
def rehash (hash : α → ℕ) (n : ℕ) (buckets : List (List α)) : List (List α) :=
  buckets.flatten.foldl (place hash) (List.replicate n [])

theorem placed_rehash (hn : 0 < n) : Placed hash (rehash hash n buckets) :=
  (foldl_place _ (placed_replicate hash n) (by simpa using hn)).1

theorem length_rehash (hn : 0 < n) : (rehash hash n buckets).length = n :=
  (foldl_place _ (placed_replicate hash n) (by simpa using hn)).2.1.trans
    List.length_replicate

/-- Nothing that can be seen changes. -/
theorem withHash_rehash (hn : 0 < n) (k : ℕ) :
    withHash hash (rehash hash n buckets) k = withHash hash buckets k := by
  have h := (foldl_place buckets.flatten (placed_replicate hash n)
    (by simpa using hn)).2.2 k
  rw [rehash, h, withHash, withHash, List.flatten_replicate_nil, List.filter_nil, List.nil_append]

theorem length_flatten_rehash (hn : 0 < n) :
    (rehash hash n buckets).flatten.length = buckets.flatten.length := by
  have hfold : ∀ (as : List α) (bs : List (List α)), 0 < bs.length →
      (as.foldl (place hash) bs).flatten.length = bs.flatten.length + as.length := by
    intro as
    induction as with
    | nil => exact fun bs _ => rfl
    | cons a as ih =>
      intro bs hbs
      rw [List.foldl_cons, ih _ (by rwa [length_place]), length_flatten_place hbs, List.length_cons]
      omega
  rw [rehash, hfold _ _ (by simpa using hn), List.flatten_replicate_nil, List.length_nil,
    Nat.zero_add]

end Buckets

end TpSo
