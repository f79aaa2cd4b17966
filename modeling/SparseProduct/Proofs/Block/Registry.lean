import Mathlib.Data.List.Nodup
import Mathlib.Data.Set.Card
import SparseProduct.Block.Registry
import SparseProduct.Proofs.Sequencing

/-!
# What a registry answers

The history of a registry is the list of the records offered to it, after those it was put together from. A
registry keeps one entry for each key that occurs in the history, with the first record under that key. This
is so at the start, because no two records of the catalog have the same key, and every offer keeps it so:
a record whose key is taken is refused and nothing is entered.
-/

namespace SparseProduct

namespace Registry

/-! ### Entering a record -/

theorem lookup_cons (key k : SemiringKey) (record : BlockSemiring)
    (entries : List (SemiringKey × BlockSemiring)) :
    ((key, record) :: entries).lookup k = if k = key then some record else entries.lookup k := by
  by_cases hk : k = key
  · rw [if_pos hk, hk, List.lookup_cons_self]
  · rw [if_neg hk, List.lookup_cons, beq_eq_false_iff_ne.2 hk]

theorem lookup_enter (key k : SemiringKey) (record : BlockSemiring)
    (entries : List (SemiringKey × BlockSemiring)) :
    (enter key record entries).lookup k = if k = key then some record else entries.lookup k := by
  induction entries with
  | nil => exact lookup_cons key k record []
  | cons entry entries ih =>
    obtain ⟨taken, old⟩ := entry
    rw [enter]
    by_cases htaken : taken = key
    · rw [if_pos htaken, lookup_cons, lookup_cons, htaken]
      split <;> rfl
    · rw [if_neg htaken, lookup_cons, lookup_cons, ih]
      by_cases hk : k = taken
      · rw [if_pos hk, if_neg (hk ▸ htaken), if_pos hk]
      · rw [if_neg hk, if_neg hk]

theorem enter_of_free {key : SemiringKey} {entries : List (SemiringKey × BlockSemiring)}
    (h : key ∉ entries.map Prod.fst) (record : BlockSemiring) :
    enter key record entries = entries ++ [(key, record)] := by
  induction entries with
  | nil => rfl
  | cons entry entries ih =>
    rw [List.map_cons, List.mem_cons, not_or] at h
    rw [enter, if_neg (Ne.symm h.1), ih h.2, List.cons_append]

theorem find?_insert (r : Registry) (record : BlockSemiring) (key : SemiringKey) :
    (r.insert record).find? key = if key = record.key then some record else r.find? key :=
  lookup_enter record.key key record r.entries

theorem find?_eq_none_iff {r : Registry} {key : SemiringKey} :
    r.find? key = none ↔ key ∉ r.entries.map Prod.fst := by
  rw [find?, List.lookup_eq_none_iff, List.mem_map]
  constructor
  · rintro h ⟨entry, hentry, rfl⟩
    exact absurd (h entry hentry) (by simp)
  · intro h entry hentry
    exact bne_iff_ne.2 fun hkey => h ⟨entry, hentry, hkey.symm⟩

theorem get_eq_ok {r : Registry} {key : SemiringKey} {record : BlockSemiring} :
    r.get key = .ok record ↔ r.find? key = some record := by
  unfold Registry.get
  cases r.find? key <;> simp

theorem enroll_of_some {r : Registry} {record old : BlockSemiring} (h : r.find? record.key = some old) :
    enroll record r = .error (.contract (.alreadyRegistered record.key)) r := by
  rw [enroll, Run.get_bind, h]
  rfl

theorem enroll_of_none {r : Registry} {record : BlockSemiring} (h : r.find? record.key = none) :
    enroll record r = .ok record (r.insert record) := by
  rw [enroll, Run.get_bind, h]
  rfl

/-! ### Histories -/

def firstUnder (history : List BlockSemiring) (key : SemiringKey) : Option BlockSemiring :=
  history.find? (·.key = key)

theorem firstUnder_append (history : List BlockSemiring) (record : BlockSemiring) (key : SemiringKey) :
    firstUnder (history ++ [record]) key =
      (firstUnder history key).or (if record.key = key then some record else none) := by
  rw [firstUnder, List.find?_append, List.find?_singleton]
  simp only [decide_eq_true_eq]
  rfl

theorem key_of_firstUnder {history : List BlockSemiring} {key : SemiringKey} {record : BlockSemiring}
    (h : firstUnder history key = some record) : record.key = key := by
  simpa using List.find?_some h

theorem firstUnder_eq_none_iff {history : List BlockSemiring} {key : SemiringKey} :
    firstUnder history key = none ↔ key ∉ history.map BlockSemiring.key := by
  simp [firstUnder]

/-- The registry has an entry for each key of the history, with the first record under that key. -/
structure Represents (r : Registry) (history : List BlockSemiring) : Prop where
  keyed : ∀ entry ∈ r.entries, entry.2.key = entry.1
  distinct : (r.entries.map Prod.fst).Nodup
  find_eq : ∀ key, r.find? key = firstUnder history key

namespace Represents

variable {r : Registry} {history : List BlockSemiring}

theorem empty : Represents .empty [] where
  keyed _ hentry := absurd hentry List.not_mem_nil
  distinct := List.nodup_nil
  find_eq _ := rfl

theorem insert (h : Represents r history) {record : BlockSemiring}
    (hfree : firstUnder history record.key = none) : Represents (r.insert record) (history ++ [record]) := by
  have hkey : record.key ∉ r.entries.map Prod.fst := find?_eq_none_iff.1 ((h.find_eq _).trans hfree)
  have hentries : (r.insert record).entries = r.entries ++ [(record.key, record)] :=
    enter_of_free hkey record
  constructor
  · intro entry hentry
    rw [hentries, List.mem_append, List.mem_singleton] at hentry
    rcases hentry with hentry | rfl
    · exact h.keyed entry hentry
    · rfl
  · rw [hentries, List.map_append, List.map_singleton]
    exact h.distinct.append (List.nodup_singleton _) (by simpa using hkey)
  · intro key
    rw [find?_insert, firstUnder_append, h.find_eq]
    by_cases hk : key = record.key
    · rw [hk, hfree, if_pos rfl, Option.none_or]
    · rw [if_neg hk, if_neg (Ne.symm hk), Option.or_none]

theorem refuse (h : Represents r history) {record old : BlockSemiring}
    (htaken : firstUnder history record.key = some old) : Represents r (history ++ [record]) where
  keyed := h.keyed
  distinct := h.distinct
  find_eq key := by
    rw [h.find_eq, firstUnder_append]
    by_cases hk : record.key = key
    · rw [← hk, htaken]
      rfl
    · rw [if_neg hk, Option.or_none]

theorem foldl_insert (h : Represents r history) {records : List BlockSemiring}
    (distinct : ((history ++ records).map BlockSemiring.key).Nodup) :
    Represents (records.foldl Registry.insert r) (history ++ records) := by
  induction records generalizing r history with
  | nil => rwa [List.append_nil]
  | cons record records ih =>
    rw [List.append_cons] at distinct ⊢
    have hfree : firstUnder history record.key = none := by
      rw [firstUnder_eq_none_iff]
      rw [List.map_append, List.map_append] at distinct
      have := List.nodup_append.1 (List.nodup_append.1 distinct).1
      exact fun hmem => this.2.2 _ hmem _ (List.mem_singleton_self _) rfl
    exact ih (h.insert hfree) distinct

end Represents

theorem nodup_catalog : (catalog.map BlockSemiring.key).Nodup := by decide

theorem represents_withCatalog : Represents withCatalog catalog :=
  Represents.empty.foldl_insert nodup_catalog

/-! ### Offers -/

/-- Offers a record. The registry is what the offer leaves, be it accepted or refused. -/
def offer (record : BlockSemiring) (r : Registry) : Result BlockSemiring × Registry :=
  match enroll record r with
  | .ok given left => (.ok given, left)
  | .error e left => (.error e, left)

/-- Offers records one after the other and collects the outcomes. -/
def offerAll : List BlockSemiring → Registry → List (Result BlockSemiring) × Registry
  | [], r => ([], r)
  | record :: records, r =>
      let first := offer record r
      let rest := offerAll records first.2
      (first.1 :: rest.1, rest.2)

/-- What comes of an offer after other records: a record is given back, unless one of them has its key. -/
def outcome (before : List BlockSemiring) (record : BlockSemiring) : Result BlockSemiring :=
  if (firstUnder before record.key).isSome then .error (.contract (.alreadyRegistered record.key))
  else .ok record

namespace Represents

variable {r : Registry} {history : List BlockSemiring} (h : Represents r history)
include h

theorem offer (record : BlockSemiring) : (offer record r).1 = outcome history record ∧
    Represents (offer record r).2 (history ++ [record]) := by
  unfold Registry.offer outcome
  cases htaken : firstUnder history record.key with
  | none =>
    rw [enroll_of_none ((h.find_eq _).trans htaken)]
    exact ⟨rfl, h.insert htaken⟩
  | some old =>
    rw [enroll_of_some ((h.find_eq _).trans htaken)]
    exact ⟨rfl, h.refuse htaken⟩

theorem offerAll (records : List BlockSemiring) :
    (offerAll records r).1 = (records.mapIdx fun i record => outcome (history ++ records.take i) record) ∧
      Represents (offerAll records r).2 (history ++ records) := by
  induction records generalizing r history with
  | nil => exact ⟨rfl, (List.append_nil history).symm ▸ h⟩
  | cons record records ih =>
    obtain ⟨hfirst, hnext⟩ := h.offer record
    obtain ⟨hrest, hlast⟩ := ih hnext
    have hbefore : (fun i later => outcome (history ++ [record] ++ records.take i) later) =
        fun i later => outcome (history ++ (record :: records).take (i + 1)) later := by
      funext i later
      rw [List.take_succ_cons, List.append_assoc, List.singleton_append]
    rw [List.append_cons]
    refine ⟨?_, hlast⟩
    rw [Registry.offerAll, hfirst, hrest, hbefore, List.mapIdx_cons, List.take_zero, List.append_nil]

theorem size_eq : r.size = {key | ∃ record, r.get key = .ok record}.ncard := by
  have hkeys : {key | ∃ record, r.get key = .ok record} = ((r.entries.map Prod.fst).toFinset : Set _) := by
    ext key
    have hnone : r.find? key = none ↔ key ∉ r.entries.map Prod.fst := find?_eq_none_iff
    simp only [Set.mem_ofPred_eq, get_eq_ok, List.coe_toFinset]
    rw [← Option.isSome_iff_exists, ← not_iff_not, Option.not_isSome_iff_eq_none, hnone]
  rw [hkeys, Set.ncard_coe_finset, List.toFinset_card_of_nodup h.distinct, List.length_map]
  rfl

end Represents

/-! ### Every history -/

/-- A registry as it is first made, and the records that it is made from. -/
inductive Initial : Registry → List BlockSemiring → Prop
  | empty : Initial .empty []
  | withCatalog : Initial .withCatalog catalog

/-- What a registry answers after a history. -/
structure Answers (r : Registry) (history : List BlockSemiring) : Prop where
  /-- Under a key stays the record that came first with it. -/
  get_eq : ∀ key, r.get key = match firstUnder history key with
    | some record => .ok record
    | none => .error (.contract (.notRegistered key))
  keyed : ∀ key record, r.get key = .ok record → record.name = key.name ∧ record.output = key.output ∧
    record.left = key.left ∧ record.right = key.right
  /-- A key that is taken is refused, and nothing changes. -/
  refused : ∀ record old, r.get record.key = .ok old →
    enroll record r = .error (.contract (.alreadyRegistered record.key)) r
  /-- A free key is taken, and the others stay as they were. -/
  accepted : ∀ record, r.get record.key = .error (.contract (.notRegistered record.key)) →
    ∃ later, enroll record r = .ok record later ∧
      ∀ key, later.get key = if key = record.key then .ok record else r.get key
  size_eq : r.size = {key | ∃ record, r.get key = .ok record}.ncard

theorem Initial.represents {start : Registry} {builtIn : List BlockSemiring}
    (h : Initial start builtIn) : Represents start builtIn := by
  cases h with
  | empty => exact .empty
  | withCatalog => exact represents_withCatalog

theorem get_insert (r : Registry) (record : BlockSemiring) (key : SemiringKey) :
    (r.insert record).get key = if key = record.key then .ok record else r.get key := by
  rw [Registry.get, Registry.get, find?_insert]
  by_cases hk : key = record.key
  · rw [if_pos hk, if_pos hk]
  · rw [if_neg hk, if_neg hk]

theorem Represents.answers {r : Registry} {history : List BlockSemiring} (h : Represents r history) :
    r.Answers history where
  get_eq key := by
    cases hfirst : firstUnder history key with
    | some record => exact get_eq_ok.2 ((h.find_eq key).trans hfirst)
    | none => simp only [Registry.get, h.find_eq, hfirst]
  keyed key record hget := by
    cases key_of_firstUnder ((h.find_eq key).symm.trans (get_eq_ok.1 hget))
    exact ⟨rfl, rfl, rfl, rfl⟩
  refused record old hget := enroll_of_some (get_eq_ok.1 hget)
  accepted record hget := by
    have hnone : r.find? record.key = none := by
      rw [Option.eq_none_iff_forall_ne_some]
      intro old hold
      cases (get_eq_ok.2 hold).symm.trans hget
    exact ⟨_, enroll_of_none hnone, get_insert r record⟩
  size_eq := h.size_eq

/-- Records are offered one after the other to a registry that starts out empty or with the catalog. An
offer is refused exactly if a record that came before it has its key. Afterwards the registry gives out, for
each key, the first record that came with it, refuses the key from then on, and counts the keys that are
taken. -/
theorem offerAll_answers {start : Registry} {builtIn : List BlockSemiring} (h : Initial start builtIn)
    (offers : List BlockSemiring) :
    (offerAll offers start).1 =
      (offers.mapIdx fun i record => outcome (builtIn ++ offers.take i) record) ∧
    (offerAll offers start).2.Answers (builtIn ++ offers) := by
  obtain ⟨houtcomes, hrepresents⟩ := h.represents.offerAll offers
  exact ⟨houtcomes, hrepresents.answers⟩

end Registry

namespace Sample

/-- Counts in elements of a caller's own type, starting from `first` in every byte. -/
def counting (size : Nat) (first : UInt8) : BlockSemiring :=
  ⟨"count", .user 1 size, .u8, .u8, Array.replicate size first, fun z _ _ => .ok z, fun z _ => .ok z,
    Array.size_replicate⟩

end Sample

/-- The catalog has reachability. Of three records that count, two differ in the size of their type, and the
third has the key of the first. -/
theorem Registry.offerAll_answers_counting :
    (offerAll [.lorLand, Sample.counting 4 0, Sample.counting 8 0, Sample.counting 4 1] withCatalog).1 =
      [.error (.contract (.alreadyRegistered (.uniform "lor_land" .bool))), .ok (Sample.counting 4 0),
        .ok (Sample.counting 8 0),
        .error (.contract (.alreadyRegistered ⟨"count", .user 1 4, .u8, .u8⟩))] ∧
    (offerAll [.lorLand, Sample.counting 4 0, Sample.counting 8 0, Sample.counting 4 1] withCatalog).2.get
      ⟨"count", .user 1 4, .u8, .u8⟩ = .ok (Sample.counting 4 0) ∧
    (offerAll [.lorLand, Sample.counting 4 0, Sample.counting 8 0, Sample.counting 4 1] withCatalog).2.get
      ⟨"count", .user 2 4, .u8, .u8⟩ =
      .error (.contract (.notRegistered ⟨"count", .user 2 4, .u8, .u8⟩)) := by
  obtain ⟨houtcomes, answers⟩ := offerAll_answers .withCatalog
    [.lorLand, Sample.counting 4 0, Sample.counting 8 0, Sample.counting 4 1]
  exact ⟨houtcomes, answers.get_eq _, answers.get_eq _⟩

end SparseProduct
