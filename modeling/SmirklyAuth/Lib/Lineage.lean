import Mathlib.Logic.Relation
import SmirklyAuth.Lib.Update

/-!
# `SmirklyAuth.Lib.Lineage`: families of one-time credentials

A registry of credentials that replace each other. A `Node` has an identifier, a family, an
owner and a payload that never change. It is live until it is retired, and a node that was
exchanged points to the node that replaced it. A registry is the list of its nodes in the
order of their creation, and it changes in three ways:

* `open_`: a node of a new family joins;
* `rotate`: a live node is exchanged for a new node of its family;
* `retire`: some nodes are retired.

`Change` is one of them. `WellFormed` is the invariant: at most one live node per family, one
owner per family, and links that form disjoint chains which only lead to later nodes.
`WellFormed.acyclic` follows. `Dead` says that a family has no live node, and a dead family
stays dead. `Evolves` says that nodes keep their fixed columns and never come back to life.
-/

set_option autoImplicit false

namespace Lineage

/-- A credential. -/
structure Node (ι φ ω δ : Type) where
  id : ι
  family : φ
  owner : ω
  payload : δ
  live : Bool
  next : Option ι

variable {ι φ ω δ : Type}

/-- A node joins the registry. -/
def open_ (x : Node ι φ ω δ) (ns : List (Node ι φ ω δ)) : List (Node ι φ ω δ) := ns ++ [x]

/-- The nodes that meet `p` are retired. -/
def retire (p : Node ι φ ω δ → Bool) (ns : List (Node ι φ ω δ)) : List (Node ι φ ω δ) :=
  ns.map fun a => if p a then { a with live := false } else a

/-- The new value of a node when the live node with the identifier `old` is exchanged for
`new`. -/
def exchange [DecidableEq ι] (old new : ι) (a : Node ι φ ω δ) : Node ι φ ω δ :=
  if a.id = old ∧ a.live = true then { a with live := false, next := some new } else a

/-- The live node with the identifier `old` is exchanged for the new node `x`. -/
def rotate [DecidableEq ι] (old : ι) (x : Node ι φ ω δ) (ns : List (Node ι φ ω δ)) :
    List (Node ι φ ω δ) :=
  (ns ++ [x]).map (exchange old x.id)

/-- `b` replaced `a`. -/
def Replaces (ns : List (Node ι φ ω δ)) (a b : Node ι φ ω δ) : Prop :=
  a ∈ ns ∧ b ∈ ns ∧ a.next = some b.id

/-- The link from the identifier of an exchanged node to the one of its replacement. -/
def Link (ns : List (Node ι φ ω δ)) (p q : ι) : Prop := ∃ a ∈ ns, a.id = p ∧ a.next = some q

/-- No node of the family is live. -/
def Dead (f : φ) (ns : List (Node ι φ ω δ)) : Prop :=
  ∀ a ∈ ns, a.family = f → a.live = false

/-- The invariant of a registry:

- `ids`: identifiers are unique;
- `oneLive`: a family has at most one live node;
- `owner`: a family has one owner;
- `retired`: a node with a link is retired, and the link leads to a node of its family;
- `single`: no node replaces two nodes;
- `later`: no link leads to an earlier node, and `notSelf`: none leads to its own node. -/
structure WellFormed (ns : List (Node ι φ ω δ)) : Prop where
  ids : (ns.map (·.id)).Nodup
  oneLive : ∀ a ∈ ns, ∀ b ∈ ns, a.family = b.family → a.live = true → b.live = true → a = b
  owner : ∀ a ∈ ns, ∀ b ∈ ns, a.family = b.family → a.owner = b.owner
  retired : ∀ a ∈ ns, ∀ n, a.next = some n →
    a.live = false ∧ ∃ b ∈ ns, b.id = n ∧ b.family = a.family
  single : ∀ a ∈ ns, ∀ b ∈ ns, ∀ n, a.next = some n → b.next = some n → a = b
  later : ns.Pairwise fun a b => b.next ≠ some a.id
  notSelf : ∀ a ∈ ns, a.next ≠ some a.id

/-- No nodes. -/
theorem WellFormed.nil : WellFormed ([] : List (Node ι φ ω δ)) := by
  constructor <;> simp

variable {ns : List (Node ι φ ω δ)} {a : Node ι φ ω δ} {p : Node ι φ ω δ → Bool}

/-- Two nodes with one identifier are the same node. -/
theorem WellFormed.eq_of_id (h : WellFormed ns)
    {b : Node ι φ ω δ} (ha : a ∈ ns) (hb : b ∈ ns) (hid : a.id = b.id) : a = b :=
  List.inj_on_of_nodup_map h.ids ha hb hid

/-- Once a new family has joined, two nodes of one family are old ones, or both the new one. -/
theorem mem_or_eq_of_open {x b : Node ι φ ω δ} (hfamily : ∀ a ∈ ns, a.family ≠ x.family)
    (ha : a ∈ open_ x ns) (hb : b ∈ open_ x ns) (hfam : a.family = b.family) :
    (a ∈ ns ∧ b ∈ ns) ∨ a = b := by
  rcases List.mem_append.mp ha with ha | ha <;> rcases List.mem_append.mp hb with hb | hb
  · exact .inl ⟨ha, hb⟩
  · rw [List.mem_singleton.mp hb] at hfam
    exact absurd hfam (hfamily a ha)
  · rw [List.mem_singleton.mp ha] at hfam
    exact absurd hfam.symm (hfamily b hb)
  · exact .inr ((List.mem_singleton.mp ha).trans (List.mem_singleton.mp hb).symm)

/-- A node of a new family may join. -/
theorem WellFormed.open_ {x : Node ι φ ω δ} (h : WellFormed ns)
    (hid : ∀ a ∈ ns, a.id ≠ x.id) (hfamily : ∀ a ∈ ns, a.family ≠ x.family)
    (hnext : x.next = none) : WellFormed (open_ x ns) where
  ids := Sql.nodup_keys_snoc h.ids hid
  oneLive a ha b hb hfam hla hlb := by
    rcases mem_or_eq_of_open hfamily ha hb hfam with ⟨ha, hb⟩ | heq
    · exact h.oneLive a ha b hb hfam hla hlb
    · exact heq
  owner a ha b hb hfam := by
    rcases mem_or_eq_of_open hfamily ha hb hfam with ⟨ha, hb⟩ | rfl
    · exact h.owner a ha b hb hfam
    · rfl
  retired a ha n hn := by
    rcases List.mem_append.mp ha with ha | ha
    · obtain ⟨hlive, b, hb, hb'⟩ := h.retired a ha n hn
      exact ⟨hlive, b, List.mem_append_left _ hb, hb'⟩
    · cases List.mem_singleton.mp ha
      rw [hnext] at hn
      cases hn
  single a ha b hb n hna hnb := by
    rcases List.mem_append.mp ha with ha | ha
    · rcases List.mem_append.mp hb with hb | hb
      · exact h.single a ha b hb n hna hnb
      · cases List.mem_singleton.mp hb
        rw [hnext] at hnb
        cases hnb
    · cases List.mem_singleton.mp ha
      rw [hnext] at hna
      cases hna
  later := by
    refine List.pairwise_append.mpr ⟨h.later, List.pairwise_singleton _ _, fun a _ b hb => ?_⟩
    rw [List.mem_singleton.mp hb, hnext]
    exact (Option.some_ne_none _).symm
  notSelf a ha := by
    rcases List.mem_append.mp ha with ha | ha
    · exact h.notSelf a ha
    · rw [List.mem_singleton.mp ha, hnext]
      exact (Option.some_ne_none _).symm

/-! ### Retiring -/

/-- The new value of a node: its fixed columns and its link stay. -/
theorem mem_retire {a' : Node ι φ ω δ} :
    a' ∈ retire p ns ↔ ∃ a ∈ ns, (if p a then { a with live := false } else a) = a' :=
  List.mem_map

/-- A node that is live after a retirement is as it was, and the retirement spared it. -/
theorem mem_of_live_retire (h : a ∈ retire p ns) (hlive : a.live = true) :
    a ∈ ns ∧ p a = false := by
  obtain ⟨b, hb, rfl⟩ := mem_retire.mp h
  cases hp : p b with
  | true =>
    rw [hp, if_pos rfl] at hlive
    cases hlive
  | false =>
    rw [if_neg Bool.false_ne_true]
    exact ⟨hb, hp⟩

/-- Retiring nodes adds no family. -/
theorem family_of_mem_retire (h : a ∈ retire p ns) : ∃ b ∈ ns, b.family = a.family := by
  obtain ⟨b, hb, rfl⟩ := mem_retire.mp h
  refine ⟨b, hb, ?_⟩
  split <;> rfl

/-- Retiring nodes keeps the invariant. -/
theorem WellFormed.retire (h : WellFormed ns)
    (p : Node ι φ ω δ → Bool) : WellFormed (retire p ns) := by
  -- the function that `retire` maps over the registry changes only `live`, and only downwards
  let g : Node ι φ ω δ → Node ι φ ω δ := fun a => if p a then { a with live := false } else a
  have hid : ∀ a, (g a).id = a.id := fun a => by simp only [g]; split <;> rfl
  have hfamily : ∀ a, (g a).family = a.family := fun a => by simp only [g]; split <;> rfl
  have howner : ∀ a, (g a).owner = a.owner := fun a => by simp only [g]; split <;> rfl
  have hnext : ∀ a, (g a).next = a.next := fun a => by simp only [g]; split <;> rfl
  have hlive : ∀ a, (g a).live = true → a.live = true := fun a => by
    simp only [g]
    split
    · exact fun hl => Bool.noConfusion hl
    · exact id
  have hmem : ∀ a' ∈ Lineage.retire p ns, ∃ a ∈ ns, g a = a' := fun a' => mem_retire.mp
  constructor
  · rw [Lineage.retire, List.map_map]
    exact (List.map_congr_left fun a _ => hid a) ▸ h.ids
  · intro a' ha' b' hb' hfam hla hlb
    obtain ⟨a, ha, rfl⟩ := hmem a' ha'
    obtain ⟨b, hb, rfl⟩ := hmem b' hb'
    rw [hfamily, hfamily] at hfam
    rw [h.oneLive a ha b hb hfam (hlive a hla) (hlive b hlb)]
  · intro a' ha' b' hb' hfam
    obtain ⟨a, ha, rfl⟩ := hmem a' ha'
    obtain ⟨b, hb, rfl⟩ := hmem b' hb'
    rw [hfamily, hfamily] at hfam
    rw [howner, howner, h.owner a ha b hb hfam]
  · intro a' ha' n hn
    obtain ⟨a, ha, rfl⟩ := hmem a' ha'
    rw [hnext] at hn
    obtain ⟨hdead, b, hb, hbid, hbfam⟩ := h.retired a ha n hn
    refine ⟨?_, g b, mem_retire.mpr ⟨b, hb, rfl⟩, ?_, ?_⟩
    · cases hl : (g a).live with
      | false => rfl
      | true => rw [hlive a hl] at hdead; cases hdead
    · rw [hid, hbid]
    · rw [hfamily, hfamily, hbfam]
  · intro a' ha' b' hb' n hna hnb
    obtain ⟨a, ha, rfl⟩ := hmem a' ha'
    obtain ⟨b, hb, rfl⟩ := hmem b' hb'
    rw [hnext] at hna hnb
    rw [h.single a ha b hb n hna hnb]
  · refine List.pairwise_map.mpr (h.later.imp fun {a b} hab => ?_)
    show (g b).next ≠ some (g a).id
    rwa [hnext, hid]
  · intro a' ha'
    obtain ⟨a, ha, rfl⟩ := hmem a' ha'
    rw [hnext, hid]
    exact h.notSelf a ha

/-! ### What lasts -/

/-- A node keeps its fixed columns, its retirement and its link. -/
structure Node.Evolves (a b : Node ι φ ω δ) : Prop where
  id : b.id = a.id
  family : b.family = a.family
  owner : b.owner = a.owner
  payload : b.payload = a.payload
  live : b.live = true → a.live = true
  next : ∀ n, a.next = some n → b.next = some n

/-- A node that nothing touched. -/
theorem Node.Evolves.refl (a : Node ι φ ω δ) : a.Evolves a :=
  ⟨rfl, rfl, rfl, rfl, fun h => h, fun _ h => h⟩

/-- One change after the other. -/
theorem Node.Evolves.trans {b c : Node ι φ ω δ} (hab : a.Evolves b) (hbc : b.Evolves c) :
    a.Evolves c where
  id := hbc.id.trans hab.id
  family := hbc.family.trans hab.family
  owner := hbc.owner.trans hab.owner
  payload := hbc.payload.trans hab.payload
  live h := hab.live (hbc.live h)
  next n h := hbc.next n (hab.next n h)

/-- Every node of the first registry is in the second one. -/
def Evolves (ns ns' : List (Node ι φ ω δ)) : Prop := ∀ a ∈ ns, ∃ b ∈ ns', a.Evolves b

/-- A list that nothing touched. -/
theorem Evolves.refl (ns : List (Node ι φ ω δ)) : Evolves ns ns :=
  fun a ha => ⟨a, ha, .refl a⟩

/-- Opening a node changes no other. -/
theorem evolves_open (x : Node ι φ ω δ) (ns : List (Node ι φ ω δ)) :
    Evolves ns (open_ x ns) := fun a ha => ⟨a, List.mem_append_left _ ha, .refl a⟩

/-- Retiring only ends nodes. -/
theorem evolves_retire (p : Node ι φ ω δ → Bool) (ns : List (Node ι φ ω δ)) :
    Evolves ns (retire p ns) := by
  intro a ha
  refine ⟨_, mem_retire.mpr ⟨a, ha, rfl⟩, ?_⟩
  split
  · exact ⟨rfl, rfl, rfl, rfl, fun hl => Bool.noConfusion hl, fun _ => id⟩
  · exact .refl a

/-- Links last. -/
theorem Evolves.link {ns' : List (Node ι φ ω δ)} (h : Evolves ns ns') {p q : ι}
    (hlink : Link ns p q) : Link ns' p q := by
  obtain ⟨a, ha, rfl, hnext⟩ := hlink
  obtain ⟨b, hb, hab⟩ := h a ha
  exact ⟨b, hb, hab.id, hab.next q hnext⟩

/-! ### Rotating -/

section
variable [DecidableEq ι] {ns : List (Node ι φ ω δ)} {old : ι} {o x : Node ι φ ω δ}

/-- What a rotation needs: the new identifier is new, and a live node `o` with the
identifier `old` agrees with `x` in its family and its owner. -/
structure Rotates (ns : List (Node ι φ ω δ)) (old : ι) (o x : Node ι φ ω δ) : Prop where
  new : ∀ a ∈ ns, a.id ≠ x.id
  mem : o ∈ ns
  id : o.id = old
  live : o.live = true
  family : o.family = x.family
  owner : o.owner = x.owner
  next : x.next = none

variable {a : Node ι φ ω δ}

/-- A rotation leaves every other node as it is. -/
theorem exchange_of_ne {new : ι} (h : a.id ≠ old) :
    exchange old new a = a := if_neg fun hc => h hc.1

/-- A rotation keeps the ids. -/
theorem exchange_id (new : ι) (a : Node ι φ ω δ) : (exchange old new a).id = a.id := by
  unfold exchange
  split <;> rfl

/-- In a well-formed registry a rotation changes one node and appends the new one. -/
theorem Rotates.rotate_eq (h : Rotates ns old o x) :
    rotate old x ns = ns.map (exchange old x.id) ++ [x] := by
  have hx : x.id ≠ old := fun heq => h.new o h.mem (h.id.trans heq.symm)
  rw [rotate, List.map_append, List.map_singleton, exchange_of_ne hx]

/-- The exchanged node points to the new one. -/
theorem Rotates.exchange_old (h : Rotates ns old o x) :
    exchange old x.id o = { o with live := false, next := some x.id } :=
  if_pos ⟨h.id, h.live⟩

/-- Every other node stays as it is. -/
theorem Rotates.exchange_other (h : Rotates ns old o x) (hwf : WellFormed ns) (ha : a ∈ ns)
    (hne : a ≠ o) : exchange old x.id a = a :=
  exchange_of_ne fun hid => hne (hwf.eq_of_id ha h.mem (hid.trans h.id.symm))

/-- A node of the registry after a rotation: the new node, the exchanged node, or an old
node that is not the exchanged one. -/
theorem Rotates.mem_rotate (h : Rotates ns old o x) (hwf : WellFormed ns)
    (ha : a ∈ rotate old x ns) :
    a = x ∨ a = { o with live := false, next := some x.id } ∨ (a ∈ ns ∧ a ≠ o) := by
  rw [h.rotate_eq] at ha
  rcases List.mem_append.mp ha with ha | ha
  · obtain ⟨a₀, ha₀, rfl⟩ := List.mem_map.mp ha
    by_cases hao : a₀ = o
    · rw [hao, h.exchange_old]
      exact .inr (.inl rfl)
    · rw [h.exchange_other hwf ha₀ hao]
      exact .inr (.inr ⟨ha₀, hao⟩)
  · exact .inl (List.mem_singleton.mp ha)

/-- Every other node is there after a rotation. -/
theorem Rotates.mem_rotate_of_mem (h : Rotates ns old o x) (hwf : WellFormed ns) (ha : a ∈ ns)
    (hne : a ≠ o) : a ∈ rotate old x ns := by
  rw [h.rotate_eq]
  exact List.mem_append_left _ (List.mem_map.mpr ⟨a, ha, h.exchange_other hwf ha hne⟩)

/-- The old node is there after a rotation, ended and with a successor. -/
theorem Rotates.old_mem_rotate (h : Rotates ns old o x) :
    { o with live := false, next := some x.id } ∈ rotate old x ns := by
  rw [h.rotate_eq]
  exact List.mem_append_left _ (List.mem_map.mpr ⟨o, h.mem, h.exchange_old⟩)

/-- The new node is there after a rotation. -/
theorem Rotates.new_mem_rotate (h : Rotates ns old o x) : x ∈ rotate old x ns := by
  rw [h.rotate_eq]
  exact List.mem_append_right _ (List.mem_singleton_self x)

/-- A rotation links the exchanged node to the new one. -/
theorem Rotates.link (h : Rotates ns old o x) : Link (rotate old x ns) old x.id :=
  ⟨_, h.old_mem_rotate, h.id, rfl⟩

/-- A rotation adds no family. -/
theorem Rotates.family_of_mem_rotate (h : Rotates ns old o x) (hwf : WellFormed ns)
    (ha : a ∈ rotate old x ns) : ∃ b ∈ ns, b.family = a.family := by
  rcases h.mem_rotate hwf ha with rfl | rfl | ⟨ha, _⟩
  · exact ⟨o, h.mem, h.family⟩
  · exact ⟨o, h.mem, rfl⟩
  · exact ⟨a, ha, rfl⟩

/-- A rotation keeps the invariant. -/
theorem WellFormed.rotate (hwf : WellFormed ns) (h : Rotates ns old o x) :
    WellFormed (rotate old x ns) := by
  -- no link of the old registry leads to the new identifier
  have hlink : ∀ a ∈ ns, a.next ≠ some x.id := fun a ha hn => by
    obtain ⟨_, b, hb, hbid, _⟩ := hwf.retired a ha x.id hn
    exact h.new b hb hbid
  have hlive : ∀ a ∈ ns, a ≠ o → a.family = x.family → a.live = false := fun a ha hne hfam => by
    cases hl : a.live with
    | false => rfl
    | true => exact absurd (hwf.oneLive a ha o h.mem (hfam.trans h.family.symm) hl h.live) hne
  constructor
  · rw [h.rotate_eq]
    have hids : (ns.map (exchange old x.id)).map (·.id) = ns.map (·.id) := by
      rw [List.map_map]
      exact List.map_congr_left fun a _ => exchange_id x.id a
    refine Sql.nodup_keys_snoc (hids ▸ hwf.ids) fun a ha => ?_
    obtain ⟨a₀, ha₀, rfl⟩ := List.mem_map.mp ha
    rw [exchange_id]
    exact h.new a₀ ha₀
  · intro a ha b hb hfam hla hlb
    rcases h.mem_rotate hwf ha with rfl | rfl | ⟨ha₀, hao⟩
    · rcases h.mem_rotate hwf hb with rfl | rfl | ⟨hb₀, hbo⟩
      · rfl
      · cases hlb
      · rw [hlive b hb₀ hbo hfam.symm] at hlb
        cases hlb
    · cases hla
    · rcases h.mem_rotate hwf hb with rfl | rfl | ⟨hb₀, hbo⟩
      · rw [hlive a ha₀ hao hfam] at hla
        cases hla
      · cases hlb
      · exact hwf.oneLive a ha₀ b hb₀ hfam hla hlb
  · -- the owner of a family is read off its members in the old registry
    have howner : ∀ a ∈ Lineage.rotate old x ns, ∃ a₀ ∈ ns, a₀.family = a.family ∧
        a₀.owner = a.owner := fun a ha => by
      rcases h.mem_rotate hwf ha with rfl | rfl | ⟨ha, _⟩
      · exact ⟨o, h.mem, h.family, h.owner⟩
      · exact ⟨o, h.mem, rfl, rfl⟩
      · exact ⟨a, ha, rfl, rfl⟩
    intro a ha b hb hfam
    obtain ⟨a₀, ha₀, hfa, hoa⟩ := howner a ha
    obtain ⟨b₀, hb₀, hfb, hob⟩ := howner b hb
    rw [← hoa, ← hob, hwf.owner a₀ ha₀ b₀ hb₀ (hfa.trans (hfam.trans hfb.symm))]
  · intro a ha n hn
    rcases h.mem_rotate hwf ha with rfl | rfl | ⟨ha, hao⟩
    · rw [h.next] at hn
      cases hn
    · cases hn
      exact ⟨rfl, x, h.new_mem_rotate, rfl, h.family.symm⟩
    · obtain ⟨hdead, b, hb, hbid, hbfam⟩ := hwf.retired a ha n hn
      by_cases hbo : b = o
      · subst hbo
        exact ⟨hdead, _, h.old_mem_rotate, hbid, hbfam⟩
      · exact ⟨hdead, b, h.mem_rotate_of_mem hwf hb hbo, hbid, hbfam⟩
  · intro a ha b hb n hna hnb
    rcases h.mem_rotate hwf ha with rfl | rfl | ⟨ha₀, hao⟩
    · rw [h.next] at hna
      cases hna
    · cases hna
      rcases h.mem_rotate hwf hb with rfl | rfl | ⟨hb₀, hbo⟩
      · rw [h.next] at hnb
        cases hnb
      · rfl
      · exact absurd hnb (hlink b hb₀)
    · rcases h.mem_rotate hwf hb with rfl | rfl | ⟨hb₀, hbo⟩
      · rw [h.next] at hnb
        cases hnb
      · cases hnb
        exact absurd hna (hlink a ha₀)
      · exact hwf.single a ha₀ b hb₀ n hna hnb
  · rw [h.rotate_eq]
    refine List.pairwise_append.mpr ⟨?_, List.pairwise_singleton _ _, fun a _ b hb => ?_⟩
    · refine List.pairwise_map.mpr (hwf.later.imp_of_mem fun {a b} ha hb hab => ?_)
      rw [exchange_id]
      by_cases hbo : b = o
      · rw [hbo, h.exchange_old]
        exact fun heq => h.new a ha (Option.some.inj heq).symm
      · rwa [h.exchange_other hwf hb hbo]
    · rw [List.mem_singleton.mp hb, h.next]
      exact (Option.some_ne_none _).symm
  · intro a ha
    rcases h.mem_rotate hwf ha with rfl | rfl | ⟨ha, _⟩
    · rw [h.next]
      exact (Option.some_ne_none _).symm
    · exact fun heq => h.new o h.mem (Option.some.inj heq).symm
    · exact hwf.notSelf a ha

/-! ### Chains -/

/-- The position of a node in the order of creation. -/
private def position (ns : List (Node ι φ ω δ)) (a : Node ι φ ω δ) : Nat :=
  (ns.map (·.id)).idxOf a.id

/-- A link leads to a later node. -/
private theorem WellFormed.position_lt (hwf : WellFormed ns) {b : Node ι φ ω δ}
    (h : Replaces ns a b) : position ns a < position ns b := by
  obtain ⟨ha, hb, hnext⟩ := h
  have hia : position ns a < ns.length := by
    simpa [position] using List.idxOf_lt_length_of_mem (List.mem_map_of_mem ha)
  have hib : position ns b < ns.length := by
    simpa [position] using List.idxOf_lt_length_of_mem (List.mem_map_of_mem hb)
  have hat : ∀ c ∈ ns, ∀ (hc : position ns c < ns.length), ns[position ns c] = c := by
    intro c hcmem hc
    refine hwf.eq_of_id (List.getElem_mem hc) hcmem ?_
    have hget := List.getElem_idxOf (List.idxOf_lt_length_of_mem
      (List.mem_map_of_mem (f := fun a : Node ι φ ω δ => a.id) hcmem))
    rw [List.getElem_map] at hget
    exact hget
  rcases Nat.lt_trichotomy (position ns a) (position ns b) with hlt | heq | hgt
  · exact hlt
  · have hab : a = b := by
      rw [← hat a ha hia, ← hat b hb hib]
      simp only [heq]
    exact absurd (hab ▸ hnext) (hwf.notSelf a ha)
  · have hpair := List.pairwise_iff_getElem.mp hwf.later _ _ hib hia hgt
    rw [hat a ha hia, hat b hb hib] at hpair
    exact absurd hnext hpair

/-- The links form no cycle. -/
theorem WellFormed.acyclic (hwf : WellFormed ns) (a : Node ι φ ω δ) :
    ¬ Relation.TransGen (Replaces ns) a a := by
  intro hcycle
  have hlt : ∀ b, Relation.TransGen (Replaces ns) a b → position ns a < position ns b := by
    intro b hab
    induction hab with
    | single h => exact hwf.position_lt h
    | tail _ h ih => exact Nat.lt_trans ih (hwf.position_lt h)
  exact Nat.lt_irrefl _ (hlt a hcycle)

/-- A rotation only ends the old node. -/
theorem evolves_rotate (hwf : WellFormed ns) (h : Rotates ns old o x) :
    Evolves ns (rotate old x ns) := by
  intro a ha
  by_cases hao : a = o
  · subst hao
    refine ⟨_, h.old_mem_rotate, rfl, rfl, rfl, rfl, fun hl => Bool.noConfusion hl, fun n hn => ?_⟩
    have hdead := (hwf.retired a ha n hn).1
    rw [h.live] at hdead
    cases hdead
  · exact ⟨a, h.mem_rotate_of_mem hwf ha hao, .refl a⟩

/-- A dead family has no node to exchange, so it stays dead. -/
theorem Dead.rotate {f : φ} (hdead : Dead f ns) (hwf : WellFormed ns)
    (h : Rotates ns old o x) : Dead f (rotate old x ns) := by
  have hne : x.family ≠ f := fun hfam => by
    have hlive := hdead o h.mem (h.family.trans hfam)
    rw [h.live] at hlive
    cases hlive
  intro a ha hfam
  rcases h.mem_rotate hwf ha with rfl | rfl | ⟨ha, _⟩
  · exact absurd hfam hne
  · rfl
  · exact hdead a ha hfam

end

section
variable {ns : List (Node ι φ ω δ)} {f : φ}

/-- Retiring every live node of a family makes it dead. -/
theorem dead_retire {p : Node ι φ ω δ → Bool}
    (h : ∀ a ∈ ns, a.family = f → a.live = true → p a = true) : Dead f (retire p ns) := by
  intro a' ha' hfam
  obtain ⟨a, ha, rfl⟩ := mem_retire.mp ha'
  by_cases hp : p a = true
  · rw [if_pos hp]
  · rw [if_neg hp] at hfam ⊢
    exact Bool.eq_false_iff.mpr fun hl => hp (h a ha hfam hl)

/-- A dead family stays dead when nodes are retired. -/
theorem Dead.retire (h : Dead f ns) (p : Node ι φ ω δ → Bool) : Dead f (retire p ns) := by
  refine dead_retire fun a ha hfam hlive => ?_
  rw [h a ha hfam] at hlive
  cases hlive

/-- A dead family stays dead when another family is opened. -/
theorem Dead.open_ {x : Node ι φ ω δ} (h : Dead f ns) (hne : x.family ≠ f) :
    Dead f (open_ x ns) := by
  intro a ha hfam
  rcases List.mem_append.mp ha with ha | ha
  · exact h a ha hfam
  · rw [List.mem_singleton.mp ha] at hfam
    exact absurd hfam hne

end

/-! ### Families with a live node -/

/-- In a family with a live node every other node was exchanged. -/
def Chained (ns : List (Node ι φ ω δ)) : Prop :=
  ∀ a ∈ ns, ∀ b ∈ ns, a.family = b.family → b.live = true → a = b ∨ a.next.isSome = true

section
variable {ns : List (Node ι φ ω δ)} {x : Node ι φ ω δ}

/-- A node of a new family starts its own chain. -/
theorem Chained.open_ (h : Chained ns) (hfamily : ∀ a ∈ ns, a.family ≠ x.family) :
    Chained (open_ x ns) := by
  intro a ha b hb hfam hlive
  rcases List.mem_append.mp ha with ha | ha <;> rcases List.mem_append.mp hb with hb | hb
  · exact h a ha b hb hfam hlive
  · rw [List.mem_singleton.mp hb] at hfam
    exact absurd hfam (hfamily a ha)
  · rw [List.mem_singleton.mp ha] at hfam
    exact absurd hfam.symm (hfamily b hb)
  · exact .inl ((List.mem_singleton.mp ha).trans (List.mem_singleton.mp hb).symm)

/-- Retiring keeps the chains. -/
theorem Chained.retire (h : Chained ns) (p : Node ι φ ω δ → Bool) : Chained (retire p ns) := by
  intro a' ha' b hb hfam hlive
  obtain ⟨hbmem, hspared⟩ := mem_of_live_retire hb hlive
  obtain ⟨a, ha, rfl⟩ := mem_retire.mp ha'
  have hfam₀ : a.family = b.family := by
    rw [← hfam]
    split <;> rfl
  rcases h a ha b hbmem hfam₀ hlive with rfl | hnext
  · -- the live node was spared
    rw [hspared, if_neg Bool.false_ne_true]
    exact .inl rfl
  · refine .inr ?_
    split <;> exact hnext

/-- After a rotation the exchanged node has a link, and its family has no other live node than
the new one. -/
theorem Chained.rotate [DecidableEq ι] {old : ι} {o : Node ι φ ω δ} (h : Chained ns)
    (hwf : WellFormed ns) (hrotates : Rotates ns old o x) : Chained (rotate old x ns) := by
  intro a ha b hb hfam hlive
  rcases hrotates.mem_rotate hwf ha with rfl | rfl | ⟨ha₀, hao⟩
  · rcases hrotates.mem_rotate hwf hb with rfl | rfl | ⟨hb₀, hbo⟩
    · exact .inl rfl
    · cases hlive
    · have hsame := hwf.oneLive o hrotates.mem b hb₀ (hrotates.family.trans hfam)
        hrotates.live hlive
      exact absurd hsame.symm hbo
  · exact .inr rfl
  · rcases hrotates.mem_rotate hwf hb with rfl | rfl | ⟨hb₀, _⟩
    · rcases h a ha₀ o hrotates.mem (hfam.trans hrotates.family.symm) hrotates.live
        with heq | hnext
      · exact absurd heq hao
      · exact .inr hnext
    · cases hlive
    · exact h a ha₀ b hb₀ hfam hlive

end

/-! ### Changes -/

section
variable [DecidableEq ι] {ns ns' : List (Node ι φ ω δ)} {f : φ}

/-- One of the three changes, or none. -/
inductive Change (ns : List (Node ι φ ω δ)) : List (Node ι φ ω δ) → Prop where
  | opened {x} (hnew : ∀ a ∈ ns, a.id ≠ x.id) (hfamily : ∀ a ∈ ns, a.family ≠ x.family)
      (hnext : x.next = none) : Change ns (open_ x ns)
  | rotated {old o x} (h : Rotates ns old o x) : Change ns (rotate old x ns)
  | retired (p : Node ι φ ω δ → Bool) : Change ns (retire p ns)
  | unchanged : Change ns ns

/-- A change keeps the invariant. -/
theorem Change.wellFormed (h : Change ns ns') (hwf : WellFormed ns) : WellFormed ns' := by
  cases h with
  | opened hnew hfamily hnext => exact hwf.open_ hnew hfamily hnext
  | rotated h => exact hwf.rotate h
  | retired p => exact hwf.retire p
  | unchanged => exact hwf

/-- A change lets the nodes evolve. -/
theorem Change.evolves (h : Change ns ns') (hwf : WellFormed ns) : Evolves ns ns' := by
  cases h with
  | opened => exact evolves_open _ _
  | rotated h => exact evolves_rotate hwf h
  | retired p => exact evolves_retire p ns
  | unchanged => exact .refl ns

/-- A dead family stays dead. -/
theorem Change.dead (h : Change ns ns') (hwf : WellFormed ns) (hmem : ∃ a ∈ ns, a.family = f)
    (hdead : Dead f ns) : Dead f ns' := by
  cases h with
  | opened _ hfamily =>
    -- the family of the new node is new, and the dead one is not
    obtain ⟨a, ha, rfl⟩ := hmem
    exact hdead.open_ (hfamily a ha).symm
  | rotated h => exact hdead.rotate hwf h
  | retired p => exact hdead.retire p
  | unchanged => exact hdead

/-- A change keeps the chains. -/
theorem Change.chained (h : Change ns ns') (hwf : WellFormed ns) (hchained : Chained ns) :
    Chained ns' := by
  cases h with
  | opened _ hfamily => exact hchained.open_ hfamily
  | rotated h => exact hchained.rotate hwf h
  | retired p => exact hchained.retire p
  | unchanged => exact hchained

end

end Lineage
