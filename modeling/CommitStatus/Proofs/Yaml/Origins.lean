import CommitStatus.Proofs.Yaml.Tokens
import CommitStatus.Yaml.Data

/-!
# Where the failure of a YAML text lies

The nodes of a document are its root and what they are made of (`Document.Has`); merging brings no others in
(`hasEntry_of_allEntries`). A document that is well formed but gives no data has a scalar among its nodes that cannot be
read (`Document.check_fails`). So a text that gives no data breaks a rule, or it is misread at one place: at a token
or at a scalar (`read_fails`).
-/

namespace CommitStatus.Yaml

namespace Document

/-- The nodes of a document. -/
inductive Has (d : Document) : Node → Prop
  | root : Has d d.root
  | item {n i : Node} {tag : Tag} {items : List Node} (h : Has d n) (hn : d.resolve n = .sequence tag items)
      (hi : i ∈ items) : Has d i
  | key {n k v : Node} {tag : Tag} {entries : List (Node × Node)} (h : Has d n)
      (hn : d.resolve n = .mapping tag entries) (he : (k, v) ∈ entries) : Has d k
  | value {n k v : Node} {tag : Tag} {entries : List (Node × Node)} (h : Has d n)
      (hn : d.resolve n = .mapping tag entries) (he : (k, v) ∈ entries) : Has d v

/-- A node of a document, or a text that stands for one. -/
def HasOrText (d : Document) (m : Node) : Prop := d.Has m ∨ m.tag = .text

/-- A key and a value that are nodes of a document; the key may be a text that stands for one. -/
def HasEntry (d : Document) (e : Node × Node) : Prop := d.HasOrText e.1 ∧ d.Has e.2

variable {d : Document} {n : Node} {entries : List (Node × Node)}

/-! ## Merging -/

theorem mem_of_mapM {α β : Type} {f : α → Option β} : ∀ {l : List α} {out : List β}, l.mapM f = some out →
    ∀ b ∈ out, ∃ a ∈ l, f a = some b
  | [], out, h, b, hb => by
    cases h
    cases hb
  | a :: l, out, h, b, hb => by
    rw [List.mapM_cons] at h
    obtain ⟨b', hb', h⟩ := Option.bind_eq_some_iff.1 h
    obtain ⟨bs, hbs, h⟩ := Option.bind_eq_some_iff.1 h
    cases h
    rcases List.mem_cons.1 hb with rfl | hb
    · exact ⟨a, List.mem_cons_self, hb'⟩
    · obtain ⟨x, hx, hfx⟩ := mem_of_mapM hbs b hb
      exact ⟨x, List.mem_cons_of_mem _ hx, hfx⟩

theorem has_of_entries? (h : d.Has n) (hn : d.entries? n = some entries) : ∀ e ∈ entries, d.Has e.1 ∧ d.Has e.2 := by
  unfold entries? at hn
  split at hn
  · rename_i tag found hfound
    cases hn
    exact fun e he => ⟨.key h hfound he, .value h hfound he⟩
  · cases hn

/-- A key is read as it stands, or as a text. -/
theorem hasOrText_asKey {k : Node} (h : d.Has k) : d.HasOrText k.asKey := by
  unfold Node.asKey
  split
  · exact .inr rfl
  · exact .inr rfl
  · exact .inr rfl
  · exact .inl h

theorem hasEntry_of_ownEntries (h : ∀ e ∈ entries, d.Has e.1 ∧ d.Has e.2) :
    ∀ e ∈ d.ownEntries entries, d.HasEntry e := by
  intro e he
  obtain ⟨⟨k, v⟩, hkv, hown⟩ := List.mem_filterMap.1 he
  obtain ⟨hk, hv⟩ := h _ hkv
  dsimp only at hown
  split at hown
  · cases hown
  · cases hown
    exact ⟨hasOrText_asKey hk, hv⟩

theorem has_of_mergeValues (h : ∀ e ∈ entries, d.Has e.1 ∧ d.Has e.2) : ∀ v ∈ d.mergeValues entries, d.Has v := by
  intro v hv
  obtain ⟨⟨k, w⟩, hkw, hmerge⟩ := List.mem_filterMap.1 hv
  dsimp only at hmerge
  split at hmerge
  · cases hmerge
    exact (h _ hkw).2
  · cases hmerge

theorem has_of_mergeSources? {sources : List Node} (h : d.Has n) (hn : d.mergeSources? n = some sources) :
    ∀ m ∈ sources, d.Has m := by
  unfold mergeSources? at hn
  split at hn
  · cases hn
    simpa using h
  · rename_i tag items hitems
    split at hn
    · cases hn
      exact fun m hm => .item h hitems (List.mem_reverse.1 hm)
    · cases hn
  · cases hn

theorem hasEntry_of_merged : ∀ {fuel : Nat} {opened : List String} {entries out : List (Node × Node)},
    (∀ e ∈ entries, d.Has e.1 ∧ d.Has e.2) → d.merged fuel opened entries = some out → ∀ e ∈ out, d.HasEntry e
  | 0, _, _, _, h, hout => by
    cases hout
    exact hasEntry_of_ownEntries h
  | fuel + 1, opened, entries, out, h, hout => by
    obtain ⟨sources, hsources, hout⟩ := Option.bind_eq_some_iff.1 hout
    obtain ⟨parts, hparts, hout⟩ := Option.bind_eq_some_iff.1 hout
    cases hout
    intro e he
    rcases List.mem_append.1 he with he | he
    · obtain ⟨part, hpart, he⟩ := List.mem_flatten.1 he
      obtain ⟨n, hn, hpart⟩ := mem_of_mapM hparts part hpart
      obtain ⟨group, hgroup, hn⟩ := List.mem_flatten.1 hn
      obtain ⟨v, hv, hgroup⟩ := mem_of_mapM hsources group hgroup
      have hnode : d.Has n := has_of_mergeSources? (has_of_mergeValues h v hv) hgroup n hn
      have hinner : ∀ e ∈ (d.entries? n).getD [], d.Has e.1 ∧ d.Has e.2 := by
        cases hes : d.entries? n with
        | none => simp
        | some es => exact has_of_entries? hnode hes
      dsimp only at hpart
      split at hpart
      · exact hasEntry_of_merged hinner hpart e he
      · split at hpart
        · cases hpart
          exact hasEntry_of_ownEntries hinner e he
        · exact hasEntry_of_merged hinner hpart e he
    · exact hasEntry_of_ownEntries h e he

/-- Merging brings no nodes into a mapping that are not in the document. -/
theorem hasEntry_of_allEntries {out : List (Node × Node)} (h : ∀ e ∈ entries, d.Has e.1 ∧ d.Has e.2)
    (hout : d.allEntries n entries = .ok out) : ∀ e ∈ out, d.HasEntry e := by
  unfold allEntries at hout
  split at hout
  · cases hout
    exact hasEntry_of_ownEntries h
  · split at hout
    · rename_i hmerged
      cases hout
      exact hasEntry_of_merged h hmerged
    · cases hout

/-! ## The first failure -/

/-- A broken rule, or a scalar of the document that cannot be read. -/
def IsOfScalar (d : Document) (e : Failure) : Prop := e = .malformed ∨ ∃ m, d.Has m ∧ d.scalar m = .error e

/-- The parts of a node of a document are nodes of it; where it has no parts, a rule is broken. -/
def IsPart (d : Document) (p : Part) : Prop := p = .error .malformed ∨ ∃ m isKey, p = .ok (m, isKey) ∧ d.HasOrText m

theorem isPart_of_entries (h : ∀ e ∈ entries, d.HasEntry e) : ∀ p ∈ partsOfEntries entries, d.IsPart p := by
  intro p hp
  obtain ⟨⟨k, v⟩, he, hp⟩ := List.mem_flatMap.1 hp
  obtain ⟨hk, hv⟩ := h _ he
  simp only [List.mem_cons, List.not_mem_nil, or_false] at hp
  rcases hp with rfl | rfl
  · exact .inr ⟨k, true, rfl, hk⟩
  · exact .inr ⟨v, false, rfl, .inl hv⟩

theorem isPart_of_malformed : ∀ p ∈ [(.error .malformed : Part)], d.IsPart p := by
  intro p hp
  exact .inl (List.mem_singleton.1 hp)

theorem isPart_of_parts (h : d.Has n) : ∀ p ∈ d.parts n, d.IsPart p := by
  unfold parts
  split
  · rename_i items hn
    intro p hp
    obtain ⟨i, hi, rfl⟩ := List.mem_map.1 hp
    exact .inr ⟨i, false, rfl, .inl (.item h hn hi)⟩
  · rename_i tag items _ hn
    split
    · intro p hp
      obtain ⟨i, hi, hp⟩ := List.mem_flatMap.1 hp
      split at hp
      · rename_i k v hentry
        obtain ⟨hk, hv⟩ := has_of_entries? (.item h hn hi) hentry (k, v) List.mem_cons_self
        simp only [List.mem_cons, List.not_mem_nil, or_false] at hp
        rcases hp with rfl | rfl
        · exact .inr ⟨k, false, rfl, .inl hk⟩
        · exact .inr ⟨v, false, rfl, .inl hv⟩
      · exact isPart_of_malformed p hp
    · exact isPart_of_malformed
  · rename_i tag entries hn
    split
    · have hentries : ∀ e ∈ entries, d.Has e.1 ∧ d.Has e.2 := fun e he => ⟨.key h hn he, .value h hn he⟩
      split
      · rename_i out hout
        exact isPart_of_entries (hasEntry_of_allEntries hentries hout)
      · rename_i e he
        unfold allEntries at he
        split at he
        · cases he
        · split at he
          · cases he
          · cases he
            exact isPart_of_malformed
    · exact isPart_of_malformed
  · exact isPart_of_malformed

theorem resolve_of_tag_text (h : n.tag = .text) : d.resolve n = n := by
  cases n with
  | reference => cases h
  | _ => rfl

theorem text_fails (d : Document) (n : Node) : FailsAs (· = .malformed) (d.text n) := by
  unfold text
  split
  · exact .error rfl
  · exact .ok _

theorem scalar_fails_of_tag_text (h : n.tag = .text) : FailsAs (· = .malformed) (d.scalar n) := by
  unfold scalar
  dsimp only
  rw [resolve_of_tag_text h, h]
  split
  · exact .error rfl
  · split
    · contradiction
    · exact .ok _

/-- A node that is not made of others breaks a rule or is a scalar that cannot be read. -/
theorem leaf_fails {keys : List String} (h : d.HasOrText n) : FailsAs d.IsOfScalar (d.leaf keys n) := by
  refine .ite (fun e he => .inl (text_fails d n e he)) fun e he => ?_
  rcases h with hn | htext
  · exact .inr ⟨n, hn, he⟩
  · exact .inl (scalar_fails_of_tag_text htext e he)

/-- Parts fail where a scalar cannot be read; the collections among them are nodes of the document. -/
theorem readParts_fails (keys : List String) : ∀ (parts : List Part) (found : List Node) (seen : List String),
    (∀ p ∈ parts, d.IsPart p) → (∀ m ∈ found, d.Has m) →
      FailsAs d.IsOfScalar (d.readParts keys parts found seen) ∧
        ∀ found' seen', d.readParts keys parts found seen = .ok (found', seen') → ∀ m ∈ found', d.Has m
  | [], found, seen, _, hfound => by
    refine ⟨.ok _, fun found' seen' h => ?_⟩
    cases h
    exact hfound
  | .error e :: rest, found, seen, hparts, _ => by
    rcases hparts _ List.mem_cons_self with he | ⟨_, _, he, -⟩
    · cases he
      exact ⟨.error (.inl rfl), nofun⟩
    · cases he
  | .ok (n, isKey) :: rest, found, seen, hparts, hfound => by
    have hrest : ∀ p ∈ rest, d.IsPart p := fun p hp => hparts p (List.mem_cons_of_mem _ hp)
    have hnode : d.HasOrText n := by
      rcases hparts _ List.mem_cons_self with he | ⟨m, k, he, hm⟩
      · cases he
      · cases he
        exact hm
    unfold readParts
    dsimp only
    split
    · rename_i hcollection
      -- a text is no collection
      have hn : d.Has n := by
        rcases hnode with hn | htext
        · exact hn
        · rw [resolve_of_tag_text htext, htext] at hcollection
          cases hcollection
      have hfound' : ∀ m ∈ n :: found, d.Has m := List.forall_mem_cons.2 ⟨hn, hfound⟩
      split
      · exact ⟨.error (.inl rfl), nofun⟩
      · split
        · exact readParts_fails keys rest _ _ hrest hfound'
        · split
          · exact readParts_fails keys rest _ _ hrest hfound
          · exact readParts_fails keys rest _ _ hrest hfound'
    · split
      · rename_i e he
        exact ⟨.error (leaf_fails hnode e he), nofun⟩
      · exact readParts_fails keys rest _ _ hrest hfound

theorem readLevels_fails : ∀ {fuel : Nat} {keys : List String} {queue : List Node} {seen : List String},
    (∀ m ∈ queue, d.Has m) → FailsAs d.IsOfScalar (d.readLevels fuel keys queue seen)
  | 0, _, _, _, _ => .ok _
  | _ + 1, _, [], _, _ => .ok _
  | fuel + 1, keys, n :: queue, seen, hqueue => by
    obtain ⟨hfails, hfound⟩ := readParts_fails (keyAnchors (d.parts n) ++ keys) (d.parts n) [] seen
      (isPart_of_parts (hqueue n List.mem_cons_self)) (by simp)
    unfold readLevels
    dsimp only
    split
    · rename_i e he
      exact .error (hfails e he)
    · rename_i found seen' hok
      refine readLevels_fails fun m hm => ?_
      rcases List.mem_append.1 hm with hm | hm
      · exact hqueue m (List.mem_cons_of_mem _ hm)
      · exact hfound _ _ hok m (List.mem_reverse.1 hm)

/-- **A document that gives no data breaks a rule or has a scalar that cannot be read.** -/
theorem check_fails (d : Document) : FailsAs d.IsOfScalar d.check := by
  have hroot : ∀ p ∈ [(.ok (d.root, false) : Part)], d.IsPart p := fun p hp =>
    .inr ⟨d.root, false, List.mem_singleton.1 hp, .inl .root⟩
  obtain ⟨hfails, hfound⟩ := readParts_fails [] [.ok (d.root, false)] [] [] hroot (by simp)
  unfold check
  cases h : d.readParts [] [.ok (d.root, false)] [] [] with
  | error e => exact .error (hfails e h)
  | ok r => exact readLevels_fails (hfound r.1 r.2 h)

end Document

/-! ## Texts -/

/-- The tags of the scalars that can be misread: truth values, numbers, and dates and moments. -/
def readTags : List Tag := [.bool, .int, .float, .timestamp]

theorem octets_fails (s : List Char) : FailsAs (· = .malformed) (Scalar.octets s) := by
  unfold Scalar.octets
  refine .ite ?_ (.error rfl)
  split
  · exact .ok _
  · exact .error rfl

/-- Where a scalar of any other tag cannot be read, a rule is broken. -/
theorem mem_readTags_of_value {tag : Tag} {codes : List Nat} {e : Failure} (h : Scalar.value tag codes = .error e)
    (he : e ≠ .malformed) : tag ∈ readTags := by
  cases tag with
  | bool => simp [readTags]
  | int => simp [readTags]
  | float => simp [readTags]
  | timestamp => simp [readTags]
  | null => cases h
  | text => cases h
  | binary => exact absurd ((octets_fails _).map _ e h) he
  | _ =>
    cases h
    exact absurd rfl he

theorem Document.mem_readTags_of_scalar {d : Document} {n : Node} {e : Failure} (h : d.scalar n = .error e)
    (he : e ≠ .malformed) : (d.resolve n).tag ∈ readTags := by
  unfold scalar at h
  dsimp only at h
  split at h
  · cases h
    exact absurd rfl he
  · split at h
    · rename_i htag
      rw [htag]
      simp [readTags]
    · exact mem_readTags_of_value h he

/-- A place at which a text is misread: a token that cannot be cut off, or a scalar of its document that stands for a
truth value, a number, a date or a moment and cannot be read as one. -/
inductive Misread (s : List Char) (e : Failure) : Prop
  | token (h : (Token.scan s).2 = some e) (hkind : e.IsOfToken) : Misread s e
  | scalar {d : Document} {n : Node} (hd : Document.ofTokens (Token.scan s).1 (Token.scan s).2 = .ok (some d))
      (hn : d.Has n) (htag : (d.resolve n).tag ∈ readTags) (h : d.scalar n = .error e) : Misread s e

/-- **A text that gives no data breaks a rule or is misread at a token or a scalar.** -/
theorem read_fails (depth : Nat) (s : List Char) : FailsAs (fun e => e = .malformed ∨ Misread s e) (read depth s) := by
  unfold read
  rcases hd : Document.ofTokens (Token.scan s).1 (Token.scan s).2 with e | _ | d
  · intro e' he
    simp only [hd] at he
    cases he
    exact (Document.ofTokens_fails _ _ e hd).imp_right fun hend => .token hend (Token.isOfToken_of_scan hend)
  · simp only [hd]
    exact .ok _
  · simp only [hd]
    show FailsAs _ (d.check >>= fun _ => .ok (d.build depth d.root))
    refine .bind (fun e he => ?_) fun _ => .ok _
    rcases d.check_fails e he with hbroken | ⟨n, hn, hscalar⟩
    · exact .inl hbroken
    · by_cases hbroken : e = .malformed
      · exact .inl hbroken
      · exact .inr (.scalar hd hn (d.mem_readTags_of_scalar hscalar hbroken) hscalar)

end CommitStatus.Yaml
