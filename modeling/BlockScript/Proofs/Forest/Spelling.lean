import BlockScript.Proofs.Forest.Check

/-! # Ids of any kind

Ids are texts as a rule, but a description may also have numbers, truth values and the not-a-number
in their place, and one id may be spelled in several ways. All that the check does with ids is to
compare them. So it comes to the same when every id is replaced by a text that stands for what it
identifies (`Value.key`, `Forest.conclude_keyed`), and what is known of texts is known of all ids:
an accepted description has links that are wired and without a cycle (`Forest.accepted_of_check`).
-/

namespace BlockScript

namespace Value

/-- A text for an identity, a different one for each. -/
def Identity.spelling : Identity → List Char
  | .null => ['n']
  | .nan => ['x']
  | .text chars => 't' :: chars.toList
  | .number .below => ['b']
  | .number .above => ['a']
  | .number (.at (.ofNat k)) => '+' :: Nat.toDigits 10 k
  | .number (.at (.negSucc k)) => '-' :: Nat.toDigits 10 k

/-- Different identities are spelled differently. -/
theorem Identity.spelling_injective : Function.Injective Identity.spelling := by
  have digits {j k : Nat} (same : Nat.toDigits 10 j = Nat.toDigits 10 k) : j = k := by
    -- Digits are read back as the number they were written for.
    have read := congrArg (fun chars => Nat.ofDigitChars 10 chars 0) same
    simpa using read
  intro first second same
  rcases first with _ | _ | (_ | (j | j) | _) | _ <;>
    rcases second with _ | _ | (_ | (k | k) | _) | _ <;>
      simp only [spelling, List.cons.injEq, Char.reduceEq, false_and, and_true, true_and,
        String.toList_inj, List.nil_eq] at same ⊢
  all_goals first | rw [same] | rw [digits same]

/-- A value as an id: an atom becomes a text that stands for what it identifies. -/
def key (value : Value) : Value :=
  match value.identity with
  | some identity => .text (String.ofList identity.spelling)
  | none => value

/-- Atoms are the values that have an identity. -/
theorem isSome_identity (value : Value) : value.identity.isSome = value.isAtom := by
  rcases value with _ | _ | _ | (_ | (_ | _) | _) | _ | _ | _ <;> rfl

/-- The key of an atom spells its identity. -/
theorem key_of_isAtom {value : Value} (atom : value.isAtom = true) :
    ∃ identity, value.identity = some identity ∧
      value.key = .text (String.ofList identity.spelling) := by
  rw [← isSome_identity] at atom
  obtain ⟨identity, found⟩ := Option.isSome_iff_exists.mp atom
  refine ⟨identity, found, ?_⟩
  rw [key, found]

/-- Lists and objects are left as they are. -/
theorem key_of_not_isAtom {value : Value} (composite : value.isAtom = false) :
    value.key = value := by
  rw [← isSome_identity, Option.isSome_eq_false_iff, Option.isNone_iff_eq_none] at composite
  rw [key, composite]

/-- The key of an atom is a text. -/
theorem isSomeText_key {value : Value} (atom : value.isAtom = true) :
    value.key.isSomeText = true := by
  obtain ⟨_, _, spelled⟩ := key_of_isAtom atom
  rw [spelled]
  rfl

/-- A key is an atom if the value is. -/
@[simp]
theorem isAtom_key (value : Value) : value.key.isAtom = value.isAtom := by
  cases atom : value.isAtom with
  | true => exact isAtom_of_isSomeText (isSomeText_key atom)
  | false => rw [key_of_not_isAtom atom, atom]

theorem atom_key (value : Value) : value.key.atom = value.atom := by
  unfold Value.atom
  rw [isAtom_key]

/-- No id becomes the empty text. -/
theorem key_ne_empty {value : Value} (atom : value.isAtom = true) : value.key ≠ .text "" := by
  obtain ⟨identity, _, spelled⟩ := key_of_isAtom atom
  rw [spelled]
  intro same
  have chars := congrArg String.toList (Value.text.inj same)
  rw [String.toList_ofList] at chars
  rcases identity with _ | _ | (_ | (_ | _) | _) | _ <;> cases chars

/-- An atom is not the same as a value that is none. -/
theorem not_same_of_isAtom_ne {a b : Value} (mixed : a.isAtom ≠ b.isAtom) : a.same b = false := by
  cases a <;> cases b <;> simp [same, sameAtom, place, isAtom] at mixed ⊢

/-- **Ids compare as before.** -/
@[simp]
theorem same_key (a b : Value) : a.key.same b.key = a.same b := by
  by_cases mixed : a.isAtom = b.isAtom
  · cases first : a.isAtom with
    | true =>
        obtain ⟨own, ownIs, ownKey⟩ := key_of_isAtom first
        obtain ⟨other, otherIs, otherKey⟩ := key_of_isAtom (mixed ▸ first)
        apply Bool.eq_iff_iff.mpr
        rw [same_iff_eq_of_left (isSomeText_key first), same_iff_identity first, ownKey, ownIs,
          otherKey, otherIs, text.injEq, String.ofList_inj, Option.some.injEq]
        exact Identity.spelling_injective.eq_iff
    | false => rw [key_of_not_isAtom first, key_of_not_isAtom (mixed ▸ first)]
  · rw [not_same_of_isAtom_ne mixed, not_same_of_isAtom_ne (by simpa using mixed)]

/-- Values become one text when they are the same. -/
theorem key_eq_key {a b : Value} (atom : a.isAtom = true) : a.key = b.key ↔ a.same b = true := by
  rw [← same_key, same_iff_eq_of_left (isSomeText_key atom)]

/-- Different texts stay different. -/
theorem key_eq_key_of_isSomeText {a b : Value} (text : a.isSomeText = true) :
    a.key = b.key ↔ a = b :=
  (key_eq_key (isAtom_of_isSomeText text)).trans (same_iff_eq_of_left text)

end Value

/-- A link with texts for its ends. -/
def Link.keyed (link : Link) : Link := ⟨link.parent.key, link.port, link.child.key⟩

namespace Forest

open Value

/-- An entry with texts for its ids. -/
def Entry.keyed (entry : Entry) : Entry := ⟨entry.id.key, entry.children.map key, entry.parents⟩

/-! ## Counting -/

/-- An id is known by its key if it is known. -/
theorem any_keyed (entries : List Entry) (id : Value) :
    (entries.map Entry.keyed).any (·.id.same id.key) = entries.any (·.id.same id) := by
  rw [List.any_map]
  exact congrArg (List.any entries) (funext fun entry => same_key entry.id id)

/-- A node enters the table by its key as it does by its id. -/
theorem addNode_keyed {entries result : List Entry} {id : Value}
    (added : addNode entries id = .ok result) :
    id.isAtom = true ∧
      addNode (entries.map Entry.keyed) id.key = .ok (result.map Entry.keyed) := by
  obtain ⟨_, identified, added⟩ := Attempt.bind_eq_ok.mp added
  refine ⟨isAtom_of_atom identified, ?_⟩
  refine Attempt.bind_eq_ok.mpr ⟨(), (atom_key id).trans identified, ?_⟩
  rw [any_keyed]
  cases known : entries.any (·.id.same id) with
  | true =>
      rw [known] at added
      cases added
      rfl
  | false =>
      rw [known] at added
      cases added
      rw [List.map_append]
      rfl

/-- Nodes are added as before, and what is added can identify one. -/
theorem foldlM_addNode_keyed {ids : List Value} {entries result : List Entry}
    (added : ids.foldlM addNode entries = .ok result) :
    (∀ id ∈ ids, id.isAtom = true) ∧
      (ids.map key).foldlM addNode (entries.map Entry.keyed) = .ok (result.map Entry.keyed) := by
  induction ids generalizing entries with
  | nil =>
      cases added
      exact ⟨fun _ member => (nomatch member), rfl⟩
  | cons id rest ih =>
      rw [List.foldlM_cons] at added
      obtain ⟨between, first, added⟩ := Attempt.bind_eq_ok.mp added
      obtain ⟨atom, firstKeyed⟩ := addNode_keyed first
      obtain ⟨atoms, restKeyed⟩ := ih added
      refine ⟨List.forall_mem_cons.mpr ⟨atom, atoms⟩, ?_⟩
      rw [List.map_cons, List.foldlM_cons, firstKeyed]
      exact restKeyed

/-- A node is there by its key if it is there. -/
theorem hasNode_keyed (entries : List Entry) (id : Value) :
    hasNode (entries.map Entry.keyed) id.key = hasNode entries id := by
  unfold hasNode
  rw [atom_key, any_keyed]

/-- A link is counted by the keys of its ends. -/
theorem count_keyed (entries : List Entry) (link : Link) :
    count (entries.map Entry.keyed) link.keyed = (count entries link).map Entry.keyed := by
  unfold count
  rw [List.map_map, List.map_map]
  apply List.map_congr_left
  intro entry _
  simp only [Function.comp_apply, Entry.keyed, Link.keyed, same_key]
  cases parent : entry.id.same link.parent <;> cases child : entry.id.same link.child <;>
    simp [child]

/-- The holder of a child is found by keys. -/
theorem holder?_keyed (link : Link) (counted : List Link) :
    holder? link.keyed (counted.map Link.keyed) = (holder? link counted).map key := by
  induction counted with
  | nil => rfl
  | cons other rest ih =>
      rw [List.map_cons, holder?, holder?, ih]
      simp only [Link.keyed, same_key]
      split
      · rfl
      · rfl

/-- The not-a-number equals nothing, but no id is one any more. -/
theorem equals_key {a b : Value} (equal : a.equals b = true) : a.key.equals b.key = true := by
  have same : a.same b = true := by
    unfold equals at equal
    split at equal
    · cases equal
    · exact equal
  unfold equals
  split
  · rename_i isNan
    have atom : a.isAtom = true := by
      rw [← isAtom_key, isNan]
      rfl
    have text := isSomeText_key atom
    rw [isNan] at text
    cases text
  · rw [same_key]
    exact same

/-- **Links are counted as before.** -/
theorem countAll_keyed {entries result : List Entry} {counted links : List Link}
    (done : countAll entries counted links = .ok result) :
    countAll (entries.map Entry.keyed) (counted.map Link.keyed) (links.map Link.keyed) =
      .ok (result.map Entry.keyed) := by
  induction links generalizing entries counted with
  | nil =>
      cases done
      rfl
  | cons link rest ih =>
      rw [countAll] at done
      obtain ⟨found, parent, done⟩ := Attempt.bind_eq_ok.mp done
      cases found with
      | false => cases done
      | true =>
          obtain ⟨found, child, done⟩ := Attempt.bind_eq_ok.mp done
          cases found with
          | false => cases done
          | true =>
              obtain ⟨_, port, done⟩ := Attempt.bind_eq_ok.mp done
              rw [List.map_cons, countAll]
              change (hasNode _ link.parent.key >>= _) = _
              rw [hasNode_keyed, parent]
              change (hasNode _ link.child.key >>= _) = _
              rw [hasNode_keyed, child]
              change (link.port.atom >>= _) = _
              rw [port]
              dsimp only [bind, Except.bind]
              rw [holder?_keyed]
              cases holder : holder? link counted with
              | some held =>
                  simp only [holder] at done
                  split at done
                  · rename_i equal
                    exact (if_pos (equals_key equal)).trans (ih done)
                  · cases done
              | none =>
                  simp only [holder] at done
                  have further := ih done
                  rw [← count_keyed] at further
                  exact further

/-! ## Settling -/

/-- Parents that pass do so by their keys. -/
theorem checkParents_keyed {entries : List Entry} (passed : checkParents entries = .ok ()) :
    checkParents (entries.map Entry.keyed) = .ok () := by
  induction entries with
  | nil => rfl
  | cons entry rest ih =>
      rw [checkParents] at passed
      rw [List.map_cons, checkParents]
      change (if 1 < entry.parents then _ else _) = _
      split at passed
      · cases passed
      · rename_i few
        rw [if_neg few]
        exact ih passed

/-- The roots by keys are the keys of the roots. -/
theorem rootsOf_keyed (entries : List Entry) :
    rootsOf (entries.map Entry.keyed) = (rootsOf entries).map key := by
  unfold rootsOf
  rw [List.filter_map, List.map_map, List.map_map]
  rfl

/-- A block is released by its key. -/
theorem release_keyed (id : Value) (entries : List Entry) :
    release id.key (entries.map Entry.keyed) =
      ((release id entries).1.map Entry.keyed, (release id entries).2) := by
  induction entries with
  | nil => rfl
  | cons entry rest ih =>
      rw [List.map_cons, release, release, ih]
      simp only [Entry.keyed, same_key]
      split
      · rfl
      · rfl

/-- Blocks are released by their keys in the same order. -/
theorem releaseAll_keyed (ids : List Value) (entries : List Entry) (queue : List Value) :
    releaseAll (ids.map key) (entries.map Entry.keyed) (queue.map key) =
      ((releaseAll ids entries queue).1.map Entry.keyed, (releaseAll ids entries queue).2.map key) := by
  induction ids generalizing entries queue with
  | nil => rfl
  | cons id rest ih =>
      rw [List.map_cons, releaseAll, releaseAll, release_keyed]
      dsimp only
      rw [← ih]
      split
      · rw [List.map_append]
        rfl
      · rfl

/-- The children by keys are the keys of the children. -/
theorem childrenOf_keyed (entries : List Entry) (id : Value) :
    childrenOf (entries.map Entry.keyed) id.key = (childrenOf entries id).map key := by
  unfold childrenOf
  have found : (entries.map Entry.keyed).find? (·.id.same id.key) =
      (entries.find? (·.id.same id)).map Entry.keyed := by
    rw [List.find?_map]
    congr 2
    exact funext fun entry => same_key entry.id id
  rw [found]
  cases entries.find? (·.id.same id) with
  | none => rfl
  | some entry => rfl

/-- **Nodes are settled as before.** -/
theorem settle_keyed (steps : Nat) (entries : List Entry) (queue : List Value) :
    settle steps (entries.map Entry.keyed) (queue.map key) =
      ((settle steps entries queue).1.map Entry.keyed, (settle steps entries queue).2) := by
  induction steps generalizing entries queue with
  | zero => rfl
  | succ steps ih =>
      cases queue with
      | nil => rfl
      | cons id queue =>
          rw [List.map_cons, settle, settle, childrenOf_keyed, releaseAll_keyed]
          dsimp only
          rw [ih]

/-- What is concluded of nodes is concluded of their keys. -/
theorem conclude_keyed {size : Nat} {entries : List Entry} {roots : List Value}
    (concluded : conclude size entries = .ok roots) :
    conclude size (entries.map Entry.keyed) = .ok (roots.map key) := by
  have start := concluded
  unfold conclude at start
  obtain ⟨_, passed, _⟩ := Attempt.bind_eq_ok.mp start
  rcases ran : settle entries.length entries (rootsOf entries) with ⟨remaining, settled⟩
  have ranKeyed : settle (entries.map Entry.keyed).length (entries.map Entry.keyed)
      (rootsOf (entries.map Entry.keyed)) = (remaining.map Entry.keyed, settled) := by
    rw [List.length_map, rootsOf_keyed, settle_keyed, ran]
  rw [conclude_eq passed ran] at concluded
  rw [conclude_eq (checkParents_keyed passed) ranKeyed]
  split at concluded
  · rename_i all
    cases concluded
    rw [if_pos all, rootsOf_keyed]
  · obtain ⟨_, _, failed⟩ := Attempt.bind_eq_ok.mp concluded
    cases failed

/-! ## Accepted descriptions -/

/-- What is known of an accepted description, whatever its ids are: with texts for its ids, the
links are wired and without a cycle, and the top-level blocks are those without a parent. -/
structure Accepted (ids : List Value) (links : List Link) (roots : List Value) : Prop where
  nodes : ∀ id ∈ ids, id.isAtom = true
  ends : ∀ link ∈ links, link.parent.isAtom = true ∧ link.port.isAtom = true ∧
    link.child.isAtom = true
  wired : Wired (ids.map key) (links.map Link.keyed)
  acyclic : Acyclic (links.map Link.keyed)
  sublist : (roots.map key).Sublist (ids.map key)
  top : ∀ id, id ∈ roots.map key ↔ id ∈ ids.map key ∧ Parentless (links.map Link.keyed) id

variable {ids nodes edges : List Value} {links : List Link} {roots : List Value}

/-- The entries come from the nodes, added one after the other, and the links, counted. -/
theorem exists_countAll_of_entries (identified : nodes.mapM (·.select "id") = .ok ids)
    (collected : Link.collect (.list nodes) (.list edges) = .ok links) {counted : List Entry}
    (made : entries (.list nodes) (.list edges) = .ok counted) :
    ∃ bare, ids.foldlM addNode [] = .ok bare ∧ countAll bare [] links = .ok counted := by
  obtain ⟨_, listed, made⟩ := Attempt.bind_eq_ok.mp made
  cases listed
  obtain ⟨_, again, made⟩ := Attempt.bind_eq_ok.mp made
  rw [identified] at again
  cases again
  obtain ⟨bare, added, made⟩ := Attempt.bind_eq_ok.mp made
  obtain ⟨_, again, made⟩ := Attempt.bind_eq_ok.mp made
  rw [collected] at again
  cases again
  exact ⟨bare, added, made⟩

/-- So are the keys of a list of atoms. -/
theorem isSomeText_of_mem_keys (atoms : ∀ id ∈ ids, id.isAtom = true) :
    ∀ id ∈ ids.map key, id.isSomeText = true := by
  intro id member
  obtain ⟨own, given, rfl⟩ := List.mem_map.mp member
  exact isSomeText_key (atoms own given)

/-- Ids that are not repeated have different texts. -/
theorem nodup_keys (atoms : ∀ id ∈ ids, id.isAtom = true)
    (once : ∀ id ∈ ids, ids.countP (·.same id) ≤ 1) : (ids.map key).Nodup := by
  apply (nodup_iff_countP (isSomeText_of_mem_keys atoms)).mpr
  intro id member
  obtain ⟨own, given, rfl⟩ := List.mem_map.mp member
  rw [List.countP_map]
  exact (List.countP_congr fun other _ => by simp).trans_le (once own given)

/-- **The check accepts nothing but forests**, whatever the ids are. -/
theorem accepted_of_check (identified : nodes.mapM (·.select "id") = .ok ids)
    (collected : Link.collect (.list nodes) (.list edges) = .ok links)
    (accepted : check (.list nodes) (.list edges) = .ok roots) : Accepted ids links roots := by
  have each := Attempt.mapM_eq_ok.mp identified
  rw [check_eq identified, each.length_eq] at accepted
  obtain ⟨_, passed, accepted⟩ := Attempt.bind_eq_ok.mp accepted
  obtain ⟨counted, made, concluded⟩ := Attempt.bind_eq_ok.mp accepted
  -- The nodes are added and the links counted, with texts for ids as without.
  obtain ⟨bare, added, counting⟩ := exists_countAll_of_entries identified collected made
  obtain ⟨atoms, addedKeyed⟩ := foldlM_addNode_keyed added
  have texts := isSomeText_of_mem_keys atoms
  have distinct := nodup_keys atoms fun id given => (forall_of_checkIds each passed id given).2
  have named : Value.text "" ∉ ids.map key := by
    intro member
    obtain ⟨own, given, same⟩ := List.mem_map.mp member
    exact key_ne_empty (atoms own given) same
  have start := foldlM_addNode (ids.map key) [] texts distinct
  rw [List.nil_append] at start
  have bareKeyed : bare.map Entry.keyed = tally (ids.map key) [] [] :=
    Except.ok.inj (addedKeyed.symm.trans start)
  have countedKeyed := countAll_keyed counting
  rw [bareKeyed, List.map_nil] at countedKeyed
  have plain := plain_of_countAll texts countedKeyed
  have cases := countAll_cases texts [] [] (links.map Link.keyed) plain .nil
    fun _ member => nomatch member
  rw [List.reverse_nil, List.nil_append, countedKeyed] at cases
  rcases cases with ⟨kept, tallied, kept_of, countable⟩ | ⟨⟨_, failed, _⟩, _⟩
  · have judged := conclude_judged texts plain named distinct kept_of countable
    rw [← Except.ok.inj tallied, List.length_map, conclude_keyed concluded] at judged
    obtain ⟨wired, acyclic, sublist, top⟩ := judged.forest
    refine ⟨atoms, ?_, wired, acyclic, sublist, top⟩
    intro link member
    have linkPlain := plain link.keyed (List.mem_map_of_mem member)
    refine ⟨?_, linkPlain.port, ?_⟩
    · rw [← isAtom_key]
      exact isAtom_of_isSomeText linkPlain.parent
    · rw [← isAtom_key]
      exact isAtom_of_isSomeText linkPlain.child
  · cases failed

end Forest

end BlockScript
