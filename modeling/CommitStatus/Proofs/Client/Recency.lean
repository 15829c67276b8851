import CommitStatus.Proofs.Client.Sessions
import Mathlib.Data.Finset.Dedup
import Mathlib.Data.Finset.Card
import Mathlib.Data.List.Dedup
import Mathlib.Data.List.DropRight

/-!
# Which clients are kept

The clients that are kept can be read off those that were obtained. Of these the last one for each key stands in
`latest`, and the pool keeps as many from its end as there is room for (`Session.Recent`):

* a client that is found moves to the end (`Recent.touch`), and so does one that is built (`Recent.put`), which pushes
  the first one out when there is no other room; so each use keeps the invariant (`Recent.next`), and any uses do
  (`recent_after`);
* behind the last client for a key stands one for each other key for which clients were obtained since
  (`exists_latest_eq`, `length_latest`), so it is still kept just if these are few (`Recent.find?_of_lastFor`);
* hence a client is reused or built by recency alone (`obtained_most_recent`).
-/

namespace CommitStatus.ClientPool

/-! ## The last for each key -/

/-- Of the clients that were obtained, the last one for each key. -/
def latest : List Obtained → List Obtained
  | [] => []
  | o :: rest => if o.key ∈ rest.map Obtained.key then latest rest else o :: latest rest

theorem map_key_latest (past : List Obtained) : (latest past).map Obtained.key = (past.map Obtained.key).dedup := by
  induction past with
  | nil => rfl
  | cons o rest ih =>
    rw [latest, List.map_cons]
    split
    · rename_i h
      rw [List.dedup_cons_of_mem h, ih]
    · rename_i h
      rw [List.dedup_cons_of_notMem h, List.map_cons, ih]

theorem nodup_latest (past : List Obtained) : ((latest past).map Obtained.key).Nodup :=
  map_key_latest past ▸ List.nodup_dedup _

theorem mem_of_mem_latest {o : Obtained} {past : List Obtained} (h : o ∈ latest past) : o ∈ past := by
  induction past with
  | nil => exact h
  | cons d rest ih =>
    rw [latest] at h
    split at h
    · exact List.mem_cons_of_mem _ (ih h)
    · rcases List.mem_cons.1 h with rfl | h
      · exact List.mem_cons_self
      · exact List.mem_cons_of_mem _ (ih h)

/-- The client that is obtained now takes the place of the one for the same key, behind all others. -/
theorem latest_concat (past : List Obtained) (o : Obtained) :
    latest (past ++ [o]) = (latest past).filter (·.key ≠ o.key) ++ [o] := by
  induction past with
  | nil => rfl
  | cons d rest ih =>
    rw [List.cons_append, latest, latest, ih]
    by_cases hd : d.key ∈ rest.map Obtained.key
    · rw [if_pos hd, if_pos (by simp [hd])]
    · rw [if_neg hd]
      by_cases hkey : d.key = o.key
      · rw [if_pos (by simp [hkey])]
        simp [hkey]
      · rw [if_neg (by simpa [hkey] using hd)]
        simp [hkey]

/-- The last ones of those that were obtained since are the last of all. -/
theorem exists_latest_append (before since : List Obtained) :
    ∃ others, latest (before ++ since) = others ++ latest since := by
  induction before with
  | nil => exact ⟨[], rfl⟩
  | cons d rest ih =>
    obtain ⟨others, h⟩ := ih
    rw [List.cons_append, latest]
    split
    · exact ⟨others, h⟩
    · exact ⟨d :: others, by rw [h, List.cons_append]⟩

/-- A client for a key for which none was obtained since is among the last, before those that were obtained since. -/
theorem exists_latest_eq {before since : List Obtained} {o : Obtained} (h : o.key ∉ since.map Obtained.key) :
    ∃ others, latest (before ++ o :: since) = others ++ o :: latest since := by
  obtain ⟨others, ho⟩ := exists_latest_append before (o :: since)
  exact ⟨others, by rw [ho, latest, if_neg h]⟩

theorem length_latest (past : List Obtained) : (latest past).length = (past.map Obtained.key).toFinset.card := by
  rw [List.card_toFinset, ← map_key_latest, List.length_map]

/-! ## As many as there is room for -/

section Room

variable {l l' : List Obtained} {o : Obtained} {n : Nat}

/-- A client stands among the last ones if fewer stand behind it. -/
theorem mem_rtake_append_cons (hn : l'.length < n) : o ∈ (l ++ o :: l').rtake n := by
  rw [List.rtake, List.drop_append]
  refine List.mem_append_right _ ?_
  have hzero : (l ++ o :: l').length - n - l.length = 0 := by
    simp only [List.length_append, List.length_cons]
    omega
  rw [hzero]
  exact List.mem_cons_self

/-- Those that stand behind a client are all that are taken, if there are enough of them. -/
theorem rtake_append_cons (hn : n ≤ l'.length) : (l ++ o :: l').rtake n = l'.rtake n := by
  have hlength : (l ++ o :: l').length - n = (l ++ [o]).length + (l'.length - n) := by
    simp only [List.length_append, List.length_cons, List.length_nil]
    omega
  have happend : l ++ o :: l' = (l ++ [o]) ++ l' := by simp
  rw [List.rtake, List.rtake, hlength, happend, List.drop_append]
  simp

/-- Where there is one too many, the first one goes. -/
theorem drop_rtake_succ : (l.rtake (n + 1)).drop ((l.rtake (n + 1)).length - n) = l.rtake n := by
  simp only [List.rtake, List.drop_drop, List.length_drop]
  congr 1
  omega

/-- Where one for a key goes, the others move up: one more of them is taken, unless it is the one that goes. -/
theorem rtake_filter_key (hl : (l.map Obtained.key).Nodup) (key : ClientKey) (n : Nat) :
    (l.filter (·.key ≠ key)).rtake n =
      if key ∈ (l.rtake (n + 1)).map Obtained.key then (l.rtake (n + 1)).filter (·.key ≠ key) else l.rtake n := by
  induction l using List.reverseRecOn generalizing n with
  | nil => simp
  | append_singleton l o ih =>
    have hnodup : (l.map Obtained.key).Nodup := by
      rw [List.map_append] at hl
      exact hl.of_append_left
    rw [List.rtake_concat_succ]
    by_cases hkey : o.key = key
    · have hnot : ∀ d ∈ l, d.key ≠ key := by
        intro d hd heq
        rw [List.map_append, List.nodup_append] at hl
        exact hl.2.2 d.key (List.mem_map_of_mem hd) o.key (by simp) (heq.trans hkey.symm)
      have hfilter : l.filter (·.key ≠ key) = l := by simpa [List.filter_eq_self] using hnot
      have hfilter' : (l.rtake n).filter (·.key ≠ key) = l.rtake n := by
        rw [List.filter_eq_self]
        intro d hd
        simpa using hnot d (List.mem_of_mem_drop hd)
      rw [List.filter_append, List.filter_append, hfilter, hfilter']
      simp [hkey]
    · cases n with
      | zero => simp [List.rtake, hkey, Ne.symm hkey]
      | succ n =>
        have hsingle : [o].filter (·.key ≠ key) = [o] := by simp [hkey]
        rw [List.filter_append, hsingle, List.rtake_concat_succ, ih hnodup, List.rtake_concat_succ]
        by_cases hmem : key ∈ (l.rtake (n + 1)).map Obtained.key
        · rw [if_pos hmem, if_pos (by simp [hmem]), List.filter_append, hsingle]
        · rw [if_neg hmem, if_neg (by simpa [Ne.symm hkey] using hmem)]

end Room

/-! ## What the pool keeps -/

section Kept

variable {p : ClientPool} {key : ClientKey} {c : Client}

/-- Where each key is there once, the client that is kept for a key is the one that is found. -/
theorem find?_eq_some_iff (h : (p.kept.map Prod.fst).Nodup) : p.find? key = some c ↔ (key, c) ∈ p.kept := by
  constructor
  · exact mem_kept_of_find?
  · intro hmem
    obtain ⟨l, l', hkept⟩ := List.append_of_mem hmem
    refine List.lookup_eq_some_iff.2 ⟨l, l', hkept, fun x hx => ?_⟩
    rw [hkept, List.map_append, List.nodup_append] at h
    exact bne_iff_ne.2 (h.2.2 x.1 (List.mem_map_of_mem hx) key (by simp)).symm

theorem find?_eq_none_iff : p.find? key = none ↔ key ∉ p.kept.map Prod.fst := by
  rw [find?, List.lookup_eq_none_iff]
  constructor
  · rintro h hmem
    obtain ⟨x, hx, rfl⟩ := List.mem_map.1 hmem
    simpa using h x hx
  · intro h x hx
    exact bne_iff_ne.2 fun heq => h (heq ▸ List.mem_map_of_mem hx)

end Kept

/-- A client as it is kept. -/
def Obtained.entry (o : Obtained) : ClientKey × Client := (o.key, o.client)

/-- The clients that are kept are the last ones that were obtained, as many as there is room for, and those that were
obtained were built before. -/
structure Session.Recent (capacity : Nat) (σ : Session) : Prop where
  room : σ.pool.capacity = capacity
  kept : σ.pool.kept = ((latest σ.obtained).rtake capacity).map Obtained.entry
  numbered : ∀ o ∈ σ.obtained, o.client.number < σ.pool.built

namespace Session

variable {σ : Session} {capacity : Nat}

theorem recent_start (capacity : Nat) (dryRun : Bool) : (start capacity dryRun).Recent capacity where
  room := rfl
  kept := by simp [start, empty, latest]
  numbered _ h := by cases h

theorem Recent.keys_kept (h : σ.Recent capacity) :
    σ.pool.kept.map Prod.fst = ((latest σ.obtained).rtake capacity).map Obtained.key := by
  rw [h.kept, List.map_map]
  rfl

theorem Recent.nodup_kept (h : σ.Recent capacity) : (σ.pool.kept.map Prod.fst).Nodup := by
  rw [h.keys_kept]
  exact ((List.drop_sublist _ _).map _).nodup (nodup_latest _)

/-- A client that is kept was obtained. -/
theorem Recent.exists_obtained (h : σ.Recent capacity) {key : ClientKey} {c : Client} (hmem : (key, c) ∈ σ.pool.kept) :
    ∃ o ∈ σ.obtained, o.key = key ∧ o.client = c := by
  rw [h.kept] at hmem
  obtain ⟨o, ho, hentry⟩ := List.mem_map.1 hmem
  cases hentry
  exact ⟨o, mem_of_mem_latest (List.mem_of_mem_drop ho), rfl, rfl⟩

/-- The client that is found takes the place of the one for the same key. -/
theorem Recent.touch (h : σ.Recent capacity) {o : Obtained} (hf : σ.pool.find? o.key = some o.client) :
    (σ.obtaining (σ.pool.touch o.key o.client) o).Recent capacity where
  room := h.room
  kept := by
    have hmem : o.key ∈ ((latest σ.obtained).rtake capacity).map Obtained.key := by
      rw [← h.keys_kept]
      exact List.mem_map_of_mem (f := Prod.fst) (mem_kept_of_find? hf)
    cases capacity with
    | zero => simp at hmem
    | succ m =>
      have htake : (latest (σ.obtained ++ [o])).rtake (m + 1) =
          ((latest σ.obtained).rtake (m + 1)).filter (·.key ≠ o.key) ++ [o] := by
        rw [latest_concat, List.rtake_concat_succ, rtake_filter_key (nodup_latest _), if_pos hmem]
      change σ.pool.kept.filter (·.1 ≠ o.key) ++ [o.entry] =
        ((latest (σ.obtained ++ [o])).rtake (m + 1)).map Obtained.entry
      rw [htake, h.kept, List.map_append, List.filter_map]
      rfl
  numbered d hd := by
    rcases List.mem_append.1 hd with hd | hd
    · exact h.numbered d hd
    · cases List.mem_singleton.1 hd
      obtain ⟨e, he, -, hc⟩ := h.exists_obtained (mem_kept_of_find? hf)
      exact hc ▸ h.numbered e he

/-- The client that is built takes the place of the one that was used the longest ago, if there is no other room. -/
theorem Recent.put (h : σ.Recent capacity) {o : Obtained} (hf : σ.pool.find? o.key = none) (hroom : 0 < capacity)
    (hnumber : o.client.number = σ.pool.built) :
    (σ.obtaining (σ.pool.put o.key o.client) o).Recent capacity where
  room := h.room
  kept := by
    have hmem : o.key ∉ ((latest σ.obtained).rtake capacity).map Obtained.key := by
      rw [← h.keys_kept]
      exact find?_eq_none_iff.1 hf
    cases capacity with
    | zero => omega
    | succ m =>
      have htake : (latest (σ.obtained ++ [o])).rtake (m + 1) = (latest σ.obtained).rtake m ++ [o] := by
        rw [latest_concat, List.rtake_concat_succ, rtake_filter_key (nodup_latest _), if_neg hmem]
      have hdrop : σ.pool.kept.drop (σ.pool.kept.length - m) = ((latest σ.obtained).rtake m).map Obtained.entry := by
        rw [h.kept, List.length_map, ← List.map_drop, drop_rtake_succ]
      have hlength : σ.pool.kept.length + 1 - σ.pool.capacity = σ.pool.kept.length - m := by
        rw [h.room]
        omega
      change σ.pool.kept.drop (σ.pool.kept.length + 1 - σ.pool.capacity) ++ [o.entry] =
        ((latest (σ.obtained ++ [o])).rtake (m + 1)).map Obtained.entry
      rw [hlength, hdrop, htake, List.map_append]
      rfl
  numbered d hd := by
    change d.client.number < σ.pool.built + 1
    rcases List.mem_append.1 hd with hd | hd
    · exact Nat.lt_succ_of_lt (h.numbered d hd)
    · cases List.mem_singleton.1 hd
      omega

/-- Each use of a pool keeps the clients that were obtained last. -/
theorem Recent.next (h : σ.Recent capacity) (u : Use) : (σ.next u).Recent capacity := by
  rcases σ.next_cases u with hu | ⟨o, hf, hu⟩ | ⟨o, login, hf, hroom, hbuilt, hu⟩ | ⟨o, -, status, hu⟩ <;> rw [hu]
  · exact h
  · exact h.touch hf
  · exact h.put hf (h.room ▸ hroom) (by rw [hbuilt]; rfl)
  · exact ⟨h.room, h.kept, h.numbered⟩

theorem recent_after (capacity : Nat) (dryRun : Bool) (uses : List Use) :
    ((start capacity dryRun).after uses).Recent capacity :=
  after_keeps (fun _ u h => h.next u) uses (recent_start capacity dryRun)

end Session

/-! ## Who gets which client -/

/-- Of the clients that were obtained, the last one for a key, and those that were obtained since. -/
structure LastFor (past : List Obtained) (key : ClientKey) (o : Obtained) (since : List Obtained) : Prop where
  meant : o.key = key
  split : ∃ before, past = before ++ o :: since
  unmet : key ∉ since.map Obtained.key

theorem LastFor.mem {past since : List Obtained} {key : ClientKey} {o : Obtained} (h : LastFor past key o since) :
    o ∈ past := by
  obtain ⟨-, ⟨before, rfl⟩, -⟩ := h
  exact List.mem_append_right _ List.mem_cons_self

/-- Clients were obtained for a key, and there is a last one, or none was. -/
theorem exists_lastFor (past : List Obtained) (key : ClientKey) :
    (∃ o since, LastFor past key o since) ∨ key ∉ past.map Obtained.key := by
  induction past with
  | nil => exact .inr List.not_mem_nil
  | cons d rest ih =>
    rcases ih with ⟨o, since, hmeant, ⟨before, rfl⟩, hunmet⟩ | hnone
    · exact .inl ⟨o, since, hmeant, ⟨d :: before, rfl⟩, hunmet⟩
    · by_cases hd : d.key = key
      · exact .inl ⟨d, rest, hd, ⟨[], rfl⟩, hnone⟩
      · exact .inr (List.not_mem_cons_of_ne_of_not_mem (Ne.symm hd) hnone)

/-- For how many keys clients were obtained. -/
def distinct (past : List Obtained) : Nat := (past.map Obtained.key).toFinset.card

/-- A client is the one that was obtained last for its key just if clients were obtained for fewer other keys since than
there is room for, and else it is a new one. -/
structure ByRecency (capacity : Nat) (past : List Obtained) (key : ClientKey) (c : Client) : Prop where
  same_iff : ∀ o since, LastFor past key o since → (c = o.client ↔ distinct since < capacity)
  new_iff : (∀ o ∈ past, o.client.number ≠ c.number) ↔ ∀ o since, LastFor past key o since → capacity ≤ distinct since

namespace Session

variable {σ : Session} {capacity : Nat} {key : ClientKey} {o : Obtained} {since : List Obtained}

/-- The last client for a key is still there if clients were obtained for few others since. -/
theorem Recent.find?_of_lastFor (h : σ.Recent capacity) (hlast : LastFor σ.obtained key o since) :
    σ.pool.find? key = if distinct since < capacity then some o.client else none := by
  obtain ⟨rfl, ⟨before, hsplit⟩, hunmet⟩ := hlast
  obtain ⟨others, hlatest⟩ : ∃ others, latest (before ++ o :: since) = others ++ o :: latest since :=
    exists_latest_eq hunmet
  split
  · rename_i hfew
    rw [find?_eq_some_iff h.nodup_kept, h.kept, hsplit, hlatest]
    refine List.mem_map_of_mem (f := Obtained.entry) (mem_rtake_append_cons ?_)
    rwa [length_latest]
  · rename_i hmany
    have hlength : capacity ≤ (latest since).length := by
      rw [length_latest]
      exact not_lt.1 hmany
    rw [find?_eq_none_iff, h.keys_kept, hsplit, hlatest, rtake_append_cons hlength]
    intro hmem
    obtain ⟨d, hd, hkey⟩ := List.mem_map.1 hmem
    exact hunmet (hkey ▸ List.mem_map_of_mem (mem_of_mem_latest (List.mem_of_mem_drop hd)))

/-- There is no client for a key for which none was obtained. -/
theorem Recent.find?_eq_none (h : σ.Recent capacity) (hnone : key ∉ σ.obtained.map Obtained.key) :
    σ.pool.find? key = none := by
  rw [find?_eq_none_iff]
  intro hmem
  obtain ⟨x, hx, rfl⟩ := List.mem_map.1 hmem
  obtain ⟨o, ho, hkey, -⟩ := h.exists_obtained hx
  exact hnone (hkey ▸ List.mem_map_of_mem ho)

/-- A client that is found is the last one for its key, and clients were obtained for few others since. -/
theorem Recent.of_found (h : σ.Recent capacity) {c : Client} (hf : σ.pool.find? key = some c)
    (hlast : LastFor σ.obtained key o since) : c = o.client ∧ distinct since < capacity := by
  rw [h.find?_of_lastFor hlast] at hf
  split at hf
  · rename_i hfew
    cases hf
    exact ⟨rfl, hfew⟩
  · cases hf

/-- If none is found, clients were obtained for many others since the last one. -/
theorem Recent.of_not_found (h : σ.Recent capacity) (hf : σ.pool.find? key = none)
    (hlast : LastFor σ.obtained key o since) : capacity ≤ distinct since := by
  by_contra hfew
  rw [h.find?_of_lastFor hlast, if_pos (not_le.1 hfew)] at hf
  cases hf

theorem Recent.byRecency_of_found (h : σ.Recent capacity) {c : Client} (hf : σ.pool.find? key = some c) :
    ByRecency capacity σ.obtained key c where
  same_iff o since hlast := by
    obtain ⟨hc, hfew⟩ := h.of_found hf hlast
    exact iff_of_true hc hfew
  new_iff := by
    rcases exists_lastFor σ.obtained key with ⟨o, since, hlast⟩ | hnone
    · obtain ⟨hc, hfew⟩ := h.of_found hf hlast
      refine iff_of_false (fun hnew => hnew o hlast.mem (by rw [hc])) fun hmany => ?_
      have := hmany o since hlast
      omega
    · rw [h.find?_eq_none hnone] at hf
      cases hf

theorem Recent.byRecency_of_built (h : σ.Recent capacity) {c : Client} (hf : σ.pool.find? key = none)
    (hnumber : c.number = σ.pool.built) : ByRecency capacity σ.obtained key c := by
  have hnew : ∀ o ∈ σ.obtained, o.client.number ≠ c.number := fun o ho => hnumber ▸ (h.numbered o ho).ne
  have hmany : ∀ o since, LastFor σ.obtained key o since → capacity ≤ distinct since :=
    fun o since hlast => h.of_not_found hf hlast
  refine ⟨fun o since hlast => iff_of_false (fun hc => hnew o hlast.mem (by rw [hc])) ?_, iff_of_true hnew hmany⟩
  exact not_lt.2 (hmany o since hlast)

/-- **Clients are reused by recency.** Where there is room for clients, those for the keys that were used last are kept,
as many as there is room for. Asking for a client fails for a colon in the user's name only, and then it changes
nothing. A client that is obtained is the last one for its key while there were few others, and else it is new. -/
theorem obtained_most_recent {capacity : Nat} (hroom : 0 < capacity) (dryRun : Bool) (uses : List Use) :
    let σ := (start capacity dryRun).after uses
    σ.pool.kept.map Prod.fst = (σ.obtained.map Obtained.key).dedup.rtake capacity ∧
    σ.pool.kept.length = min capacity (distinct σ.obtained) ∧
    ∀ env source head,
      match σ.pool.obtain env source head with
      | (pool, _, .error t) => t = .colonInUsername ∧ pool = σ.pool
      | (_, _, .ok c) => ByRecency capacity σ.obtained (source.clientKey head) c := by
  intro σ
  have h : σ.Recent capacity := recent_after capacity dryRun uses
  refine ⟨?_, ?_, fun env source head => ?_⟩
  · rw [h.keys_kept, ← map_key_latest, List.rtake, List.rtake, List.map_drop, List.length_map]
  · rw [h.kept, List.length_map, List.rtake, List.length_drop, length_latest]
    change distinct σ.obtained - (distinct σ.obtained - capacity) = min capacity (distinct σ.obtained)
    omega
  · rcases σ.pool.obtain_cases env source head with ⟨c, hf, ho⟩ | ⟨t, -, hl | hcapacity, ho⟩ | ⟨login, hf, -, -, ho⟩ <;>
      rw [ho]
    · exact h.byRecency_of_found hf
    · exact ⟨source.login_error hl, rfl⟩
    · rw [h.room] at hcapacity
      omega
    · exact h.byRecency_of_built hf rfl

/-- Clients for one repository and for forks of it are asked for. -/
def askForForks (owners : List String) : List Use :=
  owners.map fun owner =>
    .obtain (fun _ => none) ⟨cloudUrl, "team", "site", none, [], .plain⟩
      (some ⟨"1", "PR-1", "main", owner, "site", none⟩)

/-- Where there is room for two, the first of three owners to be asked for stays because it is asked for again, and the
second one goes. -/
theorem obtained_most_recent_forks :
    let σ := (start 2 false).after (askForForks ["ann", "bob", "ann", "cyd"])
    0 < 2 ∧ (σ.pool.kept.map Prod.fst).map ClientKey.owner = ["ann", "cyd"] ∧ σ.pool.kept.length = 2 := by
  intro σ
  obtain ⟨hkeys, hlength, -⟩ :=
    obtained_most_recent (by decide : 0 < 2) false (askForForks ["ann", "bob", "ann", "cyd"])
  refine ⟨by decide, ?_, hlength.trans (by decide)⟩
  rw [hkeys]
  decide

end Session

end CommitStatus.ClientPool
