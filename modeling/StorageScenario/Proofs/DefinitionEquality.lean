import Mathlib.Data.List.Forall2
import StorageScenario.Proofs.ValidationOutcome

/-!
Equality of wanted objects. Two bodies agree if they have one size and one digest, so a body
that cannot be hashed agrees with nothing, itself included. That makes equality a partial
equivalence of definitions, of tables and of mappings, which is reflexive just where all bodies
can be hashed, those that an overlay hides among them. Flattening keeps it: equal mappings put
equal definitions at the same paths, so wherever one definition replaces another, an equal one
replaces an equal one.
-/

namespace StorageScenario

namespace Body

def SameDigest (first second : Body) : Prop :=
  first.size = second.size ∧ ∃ digest, first.digest = .ok digest ∧ second.digest = .ok digest

variable {first second third : Body}

theorem agrees_iff (first second : Body) :
    first.agrees second = true ↔ first.SameDigest second := by
  unfold agrees SameDigest
  rw [Bool.and_eq_true, beq_iff_eq]
  refine and_congr_right fun _ => ?_
  cases first.digest with
  | error cause => exact iff_of_false (fun no => nomatch no) fun ⟨_, no, _⟩ => nomatch no
  | ok left =>
      cases second.digest with
      | error cause => exact iff_of_false (fun no => nomatch no) fun ⟨_, _, no⟩ => nomatch no
      | ok right =>
          simp only [beq_iff_eq, Except.ok.injEq, exists_eq_left']
          exact eq_comm

theorem same_digest_symm (same : first.SameDigest second) : second.SameDigest first := by
  obtain ⟨size, digest, inFirst, inSecond⟩ := same
  exact ⟨size.symm, digest, inSecond, inFirst⟩

theorem same_digest_trans (same : first.SameDigest second) (further : second.SameDigest third) :
    first.SameDigest third := by
  obtain ⟨size, digest, inFirst, inSecond⟩ := same
  obtain ⟨sizeOn, other, again, inThird⟩ := further
  rw [inSecond] at again
  cases again
  exact ⟨size.trans sizeOn, digest, inFirst, inThird⟩

theorem same_digest_itself_iff (body : Body) : body.SameDigest body ↔ body.Hashable := by
  unfold SameDigest Hashable
  simp only [true_and, and_self]

/-- A way to copy bodies. The copy may be of another kind. It reads like the original and brings
the same digest, if that brings one. -/
def Copies (copy : Body → Body) : Prop :=
  ∀ body, (copy body).size = body.size ∧ (copy body).contents = body.contents ∧
    (copy body).ownDigest? = body.ownDigest?

theorem copy_same_digest {copy : Body → Body} (copies : Copies copy) (first second : Body) :
    (copy first).SameDigest second ↔ first.SameDigest second := by
  unfold SameDigest digest
  obtain ⟨size, contents, own⟩ := copies first
  rw [size, contents, own]

end Body

namespace ObjectDefinition

def Hashable (definition : ObjectDefinition) : Prop :=
  ∀ body, definition.body = some body → body.Hashable

theorem hashable_of_readable {definition : ObjectDefinition} (readable : definition.IsReadable) :
    definition.Hashable :=
  fun body declared => Body.hashable_of_readable (readable body declared)

theorem bodies_agree_iff (first second : Option Body) :
    bodiesAgree first second = true ↔ Option.Rel Body.SameDigest first second := by
  cases first with
  | none =>
      cases second with
      | none => exact iff_of_true rfl .none
      | some body => exact iff_of_false (fun no => nomatch no) fun no => nomatch no
  | some body =>
      cases second with
      | none => exact iff_of_false (fun no => nomatch no) fun no => nomatch no
      | some other =>
          rw [bodiesAgree, Body.agrees_iff]
          exact ⟨.some, fun | .some same => same⟩

theorem bodies_symm {first second : Option Body}
    (same : Option.Rel Body.SameDigest first second) :
    Option.Rel Body.SameDigest second first := by
  cases same with
  | none => exact .none
  | some body => exact .some (Body.same_digest_symm body)

theorem bodies_trans {first second third : Option Body}
    (same : Option.Rel Body.SameDigest first second)
    (further : Option.Rel Body.SameDigest second third) :
    Option.Rel Body.SameDigest first third := by
  cases same with
  | none => exact further
  | some body =>
      cases further with
      | some bodyOn => exact .some (Body.same_digest_trans body bodyOn)

theorem bodies_of_copy {copy : Body → Body} (copies : Body.Copies copy)
    (first second : Option Body) :
    Option.Rel Body.SameDigest (first.map copy) second ↔
      Option.Rel Body.SameDigest first second := by
  cases first with
  | none => rfl
  | some body =>
      constructor
      · rintro ⟨same⟩
        exact .some ((Body.copy_same_digest copies body _).mp same)
      · rintro ⟨same⟩
        exact .some ((Body.copy_same_digest copies body _).mpr same)

theorem beq_iff (first second : ObjectDefinition) :
    (first == second) = true ↔
      first.name = second.name ∧ first.properties = second.properties ∧
        first.shouldExist = second.shouldExist ∧
          Option.Rel Body.SameDigest first.body second.body := by
  change first.agrees second = true ↔ _
  unfold agrees
  simp only [Bool.and_eq_true, beq_iff_eq, bodies_agree_iff]
  tauto

instance : PartialEquivBEq ObjectDefinition where
  symm := by
    intro first second same
    rw [beq_iff] at same ⊢
    obtain ⟨name, properties, shouldExist, bodies⟩ := same
    exact ⟨name.symm, properties.symm, shouldExist.symm, bodies_symm bodies⟩
  trans := by
    intro first second third same further
    rw [beq_iff] at same further ⊢
    obtain ⟨name, properties, shouldExist, bodies⟩ := same
    obtain ⟨nameOn, propertiesOn, shouldExistOn, bodiesOn⟩ := further
    exact ⟨name.trans nameOn, properties.trans propertiesOn, shouldExist.trans shouldExistOn,
      bodies_trans bodies bodiesOn⟩

theorem beq_itself_iff (definition : ObjectDefinition) :
    (definition == definition) = true ↔ definition.Hashable := by
  rw [beq_iff]
  unfold Hashable
  simp only [true_and]
  cases definition.body with
  | none => exact iff_of_true .none fun body no => nomatch no
  | some body =>
      simp only [Option.some.injEq, forall_eq', ← Body.same_digest_itself_iff]
      exact ⟨fun | .some same => same, .some⟩

theorem beq_marked_folder {first second : ObjectDefinition} (same : (first == second) = true) :
    (first.markedFolder == second.markedFolder) = true := by
  rw [beq_iff] at same ⊢
  obtain ⟨name, properties, shouldExist, bodies⟩ := same
  exact ⟨name, by unfold markedFolder; rw [properties], shouldExist, bodies⟩

def copied (copy : Body → Body) (definition : ObjectDefinition) : ObjectDefinition :=
  { definition with body := definition.body.map copy }

theorem copied_beq_iff {copy : Body → Body} (copies : Body.Copies copy)
    (definition other : ObjectDefinition) :
    (definition.copied copy == other) = true ↔ (definition == other) = true := by
  rw [beq_iff, beq_iff, ← bodies_of_copy copies definition.body]
  rfl

end ObjectDefinition

namespace Table

variable {α : Type} [BEq α]

/-- The same keys in the same order, with equal values. -/
def Alike (first second : List (String × α)) : Prop :=
  List.Forall₂ (fun left right => left.1 = right.1 ∧ (left.2 == right.2) = true) first second

variable {first second third : List (String × α)}

theorem alike_itself_iff (entries : List (String × α)) :
    Alike entries entries ↔ ∀ entry ∈ entries, (entry.2 == entry.2) = true := by
  unfold Alike
  simp [List.forall₂_same]

theorem alike_symm (alike : Alike first second)
    (each : ∀ entry ∈ first, ∀ other, (entry.2 == other) = true →
      (other == entry.2) = true) :
    Alike second first := by
  induction alike with
  | nil => exact .nil
  | cons same _ ih =>
      rw [List.forall_mem_cons] at each
      exact .cons ⟨same.1.symm, each.1 _ same.2⟩ (ih each.2)

theorem alike_trans (alike : Alike first second) (further : Alike second third)
    (each : ∀ entry ∈ first, ∀ middle last, (entry.2 == middle) = true →
      (middle == last) = true → (entry.2 == last) = true) : Alike first third := by
  induction alike generalizing third with
  | nil =>
      cases further
      exact .nil
  | cons same _ ih =>
      rw [List.forall_mem_cons] at each
      cases further with
      | cons sameOn rest =>
          exact .cons ⟨same.1.trans sameOn.1, each.1 _ _ same.2 sameOn.2⟩ (ih rest each.2)

theorem alike_changed (change : α → α) (alike : Alike first second)
    (each : ∀ entry ∈ first, ∀ other, (entry.2 == other) = true →
      (change entry.2 == other) = true) :
    Alike (first.map fun entry => (entry.1, change entry.2)) second := by
  induction alike with
  | nil => exact .nil
  | cons same _ ih =>
      rw [List.forall_mem_cons] at each
      exact .cons ⟨same.1, each.1 _ same.2⟩ (ih each.2)

theorem alike_append {later others : List (String × α)} (alike : Alike first second)
    (rest : Alike later others) : Alike (first ++ later) (second ++ others) :=
  List.rel_append alike rest

theorem list_beq_iff_alike (first second : List (String × α)) :
    (first == second) = true ↔ Alike first second := by
  induction first generalizing second with
  | nil =>
      cases second with
      | nil => exact iff_of_true rfl .nil
      | cons head rest => exact iff_of_false (fun no => nomatch no) fun no => nomatch no
  | cons head rest ih =>
      cases second with
      | nil => exact iff_of_false (fun no => nomatch no) fun no => nomatch no
      | cons other others =>
          have entries : (head == other) = true ↔
              head.1 = other.1 ∧ (head.2 == other.2) = true := by
            change (head.1 == other.1 && head.2 == other.2) = true ↔ _
            simp
          unfold Alike at ih ⊢
          rw [List.cons_beq_cons, Bool.and_eq_true, entries, ih, List.forall₂_cons]

theorem beq_iff_alike (first second : Table α) :
    (first == second) = true ↔ Alike first.entries second.entries :=
  list_beq_iff_alike first.entries second.entries

instance [PartialEquivBEq α] : PartialEquivBEq (Table α) where
  symm := by
    intro first second same
    rw [beq_iff_alike] at same ⊢
    exact alike_symm same fun _ _ _ => BEq.symm
  trans := by
    intro first second third same further
    rw [beq_iff_alike] at same further ⊢
    exact alike_trans same further fun _ _ _ _ => BEq.trans

/-- A value finds the same place in tables with the same keys, and replaces an equal one. -/
theorem alike_insert_entry (alike : Alike first second) (key : String) {value other : α}
    (same : (value == other) = true) :
    Alike (insertEntry key value first) (insertEntry key other second) := by
  induction alike with
  | nil => exact .cons ⟨rfl, same⟩ .nil
  | cons head rest ih =>
      simp only [insertEntry, ← head.1]
      split
      · exact .cons ⟨rfl, same⟩ (.cons head rest)
      · split
        · exact .cons head ih
        · exact .cons ⟨rfl, same⟩ rest

theorem alike_extend {table other : Table α} (alike : Alike table.entries other.entries)
    {pairs others : List (String × α)} (paired : Alike pairs others) :
    Alike (table.extend pairs).entries (other.extend others).entries := by
  induction paired generalizing table other with
  | nil => exact alike
  | @cons head headOther rest restOther same _ ih =>
      have next : Alike (table.insert head.1 head.2).entries
          (other.insert headOther.1 headOther.2).entries := by
        rw [← same.1]
        exact alike_insert_entry alike head.1 same.2
      exact ih next

theorem alike_of_list {pairs others : List (String × α)} (paired : Alike pairs others) :
    Alike (ofList pairs).entries (ofList others).entries := by
  have nothing : Alike (empty : Table α).entries (empty : Table α).entries := .nil
  exact alike_extend nothing paired

end Table

namespace Mapping

/-- What holds of every shape if it holds of the mappings inside, holds of all mappings. -/
@[elab_as_elim]
theorem by_shape {motive : Mapping → Prop} (mapping : Mapping)
    (flat : ∀ objects, motive (.flat objects))
    (folder : ∀ own children, (∀ child ∈ children, motive child.2) →
      motive (.folder own children))
    (single : ∀ object, motive (.single object))
    (under : ∀ parent mapping, motive mapping → motive (.under parent mapping))
    (overlay : ∀ base upper, motive base → motive upper → motive (.overlay base upper)) :
    motive mapping :=
  @Mapping.rec motive (fun children => ∀ child ∈ children, motive child.2)
    (fun child => motive child.2) flat folder single under overlay
    (fun _ member => absurd member List.not_mem_nil)
    (fun _ _ first rest => List.forall_mem_cons.mpr ⟨first, rest⟩) (fun _ _ inside => inside)
    mapping

section Equality

variable {other : Mapping}

theorem beq_flat_iff (objects : Table ObjectDefinition) :
    (Mapping.flat objects == other) = true ↔
      ∃ others, other = .flat others ∧ (objects == others) = true := by
  constructor
  · intro same
    cases other with
    | flat others => exact ⟨others, rfl, same⟩
    | _ => cases same
  · rintro ⟨others, rfl, same⟩
    exact same

theorem children_agree_iff_alike (children others : List (String × Mapping)) :
    childrenAgree children others = true ↔ Table.Alike children others := by
  rw [← Table.list_beq_iff_alike]
  induction children generalizing others with
  | nil => cases others <;> simp [childrenAgree]
  | cons head rest ih =>
      cases others with
      | nil => simp [childrenAgree]
      | cons otherHead otherRest =>
          rw [childrenAgree, List.cons_beq_cons, Bool.and_eq_true, Bool.and_eq_true,
            Bool.and_eq_true (head == otherHead), ih]
          exact and_congr_left' Bool.and_eq_true_iff.symm

theorem beq_folder_iff (own : ObjectDefinition) (children : List (String × Mapping)) :
    (Mapping.folder own children == other) = true ↔
      ∃ otherOwn others, other = .folder otherOwn others ∧ (own == otherOwn) = true ∧
        Table.Alike children others := by
  constructor
  · intro same
    cases other with
    | folder otherOwn others =>
        obtain ⟨ownSame, inside⟩ := Bool.and_eq_true_iff.mp same
        exact ⟨otherOwn, others, rfl, ownSame,
          (children_agree_iff_alike children others).mp inside⟩
    | _ => cases same
  · rintro ⟨otherOwn, others, rfl, ownSame, alike⟩
    exact Bool.and_eq_true_iff.mpr
      ⟨ownSame, (children_agree_iff_alike children others).mpr alike⟩

theorem beq_single_iff (object : ObjectDefinition) :
    (Mapping.single object == other) = true ↔
      ∃ otherObject, other = .single otherObject ∧ (object == otherObject) = true := by
  constructor
  · intro same
    cases other with
    | single otherObject => exact ⟨otherObject, rfl, same⟩
    | _ => cases same
  · rintro ⟨otherObject, rfl, same⟩
    exact same

theorem beq_under_iff (parent : String) (mapping : Mapping) :
    (Mapping.under parent mapping == other) = true ↔
      ∃ inside, other = .under parent inside ∧ (mapping == inside) = true := by
  constructor
  · intro same
    cases other with
    | under otherParent inside =>
        obtain ⟨named, agrees⟩ := Bool.and_eq_true_iff.mp same
        cases beq_iff_eq.mp named
        exact ⟨inside, rfl, agrees⟩
    | _ => cases same
  · rintro ⟨inside, rfl, same⟩
    exact Bool.and_eq_true_iff.mpr ⟨beq_self_eq_true parent, same⟩

theorem beq_overlay_iff (base upper : Mapping) :
    (Mapping.overlay base upper == other) = true ↔
      ∃ otherBase otherUpper, other = .overlay otherBase otherUpper ∧
        (base == otherBase) = true ∧ (upper == otherUpper) = true := by
  constructor
  · intro same
    cases other with
    | overlay otherBase otherUpper =>
        exact ⟨otherBase, otherUpper, rfl, Bool.and_eq_true_iff.mp same⟩
    | _ => cases same
  · rintro ⟨otherBase, otherUpper, rfl, same⟩
    exact Bool.and_eq_true_iff.mpr same

theorem beq_symm (first second : Mapping) (same : (first == second) = true) :
    (second == first) = true := by
  induction first using by_shape generalizing second with
  | flat objects =>
      obtain ⟨others, rfl, objectsSame⟩ := (beq_flat_iff objects).mp same
      exact (beq_flat_iff others).mpr ⟨objects, rfl, BEq.symm objectsSame⟩
  | folder own children ih =>
      obtain ⟨otherOwn, others, rfl, ownSame, alike⟩ := (beq_folder_iff own children).mp same
      exact (beq_folder_iff otherOwn others).mpr
        ⟨own, children, rfl, BEq.symm ownSame, Table.alike_symm alike ih⟩
  | single object =>
      obtain ⟨otherObject, rfl, objectSame⟩ := (beq_single_iff object).mp same
      exact (beq_single_iff otherObject).mpr ⟨object, rfl, BEq.symm objectSame⟩
  | under parent mapping ih =>
      obtain ⟨inside, rfl, insideSame⟩ := (beq_under_iff parent mapping).mp same
      exact (beq_under_iff parent inside).mpr ⟨mapping, rfl, ih inside insideSame⟩
  | overlay base upper baseIh upperIh =>
      obtain ⟨otherBase, otherUpper, rfl, baseSame, upperSame⟩ :=
        (beq_overlay_iff base upper).mp same
      exact (beq_overlay_iff otherBase otherUpper).mpr
        ⟨base, upper, rfl, baseIh otherBase baseSame, upperIh otherUpper upperSame⟩

theorem beq_trans (first second third : Mapping) (same : (first == second) = true)
    (further : (second == third) = true) : (first == third) = true := by
  induction first using by_shape generalizing second third with
  | flat objects =>
      obtain ⟨others, rfl, objectsSame⟩ := (beq_flat_iff objects).mp same
      obtain ⟨last, rfl, objectsFurther⟩ := (beq_flat_iff others).mp further
      exact (beq_flat_iff objects).mpr ⟨last, rfl, BEq.trans objectsSame objectsFurther⟩
  | folder own children ih =>
      obtain ⟨otherOwn, others, rfl, ownSame, alike⟩ := (beq_folder_iff own children).mp same
      obtain ⟨lastOwn, last, rfl, ownFurther, alikeOn⟩ :=
        (beq_folder_iff otherOwn others).mp further
      exact (beq_folder_iff own children).mpr
        ⟨lastOwn, last, rfl, BEq.trans ownSame ownFurther, Table.alike_trans alike alikeOn ih⟩
  | single object =>
      obtain ⟨otherObject, rfl, objectSame⟩ := (beq_single_iff object).mp same
      obtain ⟨last, rfl, objectFurther⟩ := (beq_single_iff otherObject).mp further
      exact (beq_single_iff object).mpr ⟨last, rfl, BEq.trans objectSame objectFurther⟩
  | under parent mapping ih =>
      obtain ⟨inside, rfl, insideSame⟩ := (beq_under_iff parent mapping).mp same
      obtain ⟨last, rfl, insideFurther⟩ := (beq_under_iff parent inside).mp further
      exact (beq_under_iff parent mapping).mpr
        ⟨last, rfl, ih inside last insideSame insideFurther⟩
  | overlay base upper baseIh upperIh =>
      obtain ⟨otherBase, otherUpper, rfl, baseSame, upperSame⟩ :=
        (beq_overlay_iff base upper).mp same
      obtain ⟨lastBase, lastUpper, rfl, baseFurther, upperFurther⟩ :=
        (beq_overlay_iff otherBase otherUpper).mp further
      exact (beq_overlay_iff base upper).mpr
        ⟨lastBase, lastUpper, rfl, baseIh otherBase lastBase baseSame baseFurther,
          upperIh otherUpper lastUpper upperSame upperFurther⟩

instance : PartialEquivBEq Mapping where
  symm := fun {first second} => beq_symm first second
  trans := fun {first second third} => beq_trans first second third

end Equality

mutual

/-- All definitions in a mapping, also those that others replace when it is flattened. -/
def definitions : Mapping → List ObjectDefinition
  | .flat objects => objects.entries.map Prod.snd
  | .folder own children => own :: definitionsInside children
  | .single object => [object]
  | .under _ mapping => mapping.definitions
  | .overlay base upper => base.definitions ++ upper.definitions

def definitionsInside : List (String × Mapping) → List ObjectDefinition
  | [] => []
  | (_, child) :: rest => child.definitions ++ definitionsInside rest

end

theorem definitions_inside_eq (children : List (String × Mapping)) :
    definitionsInside children = children.flatMap fun child => child.2.definitions := by
  induction children with
  | nil => rfl
  | cons head rest ih => rw [definitionsInside, ih, List.flatMap_cons]

theorem beq_itself_iff (mapping : Mapping) :
    (mapping == mapping) = true ↔
      ∀ definition ∈ mapping.definitions, definition.Hashable := by
  induction mapping using by_shape with
  | flat objects =>
      rw [definitions, List.forall_mem_map]
      simp only [← ObjectDefinition.beq_itself_iff]
      exact Iff.trans (Table.beq_iff_alike objects objects) (Table.alike_itself_iff _)
  | folder own children ih =>
      rw [definitions, List.forall_mem_cons, definitions_inside_eq, List.forall_mem_flatMap,
        ← ObjectDefinition.beq_itself_iff]
      have inside : Table.Alike children children ↔
          ∀ child ∈ children, ∀ definition ∈ child.2.definitions, definition.Hashable := by
        rw [Table.alike_itself_iff]
        exact forall₂_congr ih
      rw [← inside, beq_folder_iff]
      constructor
      · rintro ⟨_, _, same, ownSame, alike⟩
        cases same
        exact ⟨ownSame, alike⟩
      · rintro ⟨ownSame, alike⟩
        exact ⟨own, children, rfl, ownSame, alike⟩
  | single object =>
      rw [definitions, List.forall_mem_singleton]
      exact ObjectDefinition.beq_itself_iff object
  | under parent mapping ih =>
      rw [definitions, ← ih, beq_under_iff]
      simp
  | overlay base upper baseIh upperIh =>
      rw [definitions, List.forall_mem_append, ← baseIh, ← upperIh]
      exact Bool.and_eq_true_iff

mutual

def copied (copy : Body → Body) : Mapping → Mapping
  | .flat objects => .flat (objects.map (·.copied copy))
  | .folder own children => .folder (own.copied copy) (childrenCopied copy children)
  | .single object => .single (object.copied copy)
  | .under parent mapping => .under parent (mapping.copied copy)
  | .overlay base upper => .overlay (base.copied copy) (upper.copied copy)

def childrenCopied (copy : Body → Body) : List (String × Mapping) → List (String × Mapping)
  | [] => []
  | (name, child) :: rest => (name, child.copied copy) :: childrenCopied copy rest

end

theorem children_copied_eq (copy : Body → Body) (children : List (String × Mapping)) :
    childrenCopied copy children = children.map fun child => (child.1, child.2.copied copy) := by
  induction children with
  | nil => rfl
  | cons head rest ih => rw [childrenCopied, ih, List.map_cons]

theorem copied_beq {copy : Body → Body} (copies : Body.Copies copy) (mapping other : Mapping)
    (same : (mapping == other) = true) : (mapping.copied copy == other) = true := by
  induction mapping using by_shape generalizing other with
  | flat objects =>
      obtain ⟨others, rfl, objectsSame⟩ := (beq_flat_iff objects).mp same
      refine (beq_flat_iff _).mpr ⟨others, rfl, ?_⟩
      rw [Table.beq_iff_alike] at objectsSame ⊢
      refine Table.alike_changed _ objectsSame fun entry _ otherObject objectSame => ?_
      rwa [ObjectDefinition.copied_beq_iff copies]
  | folder own children ih =>
      obtain ⟨otherOwn, others, rfl, ownSame, alike⟩ := (beq_folder_iff own children).mp same
      rw [← ObjectDefinition.copied_beq_iff copies] at ownSame
      rw [copied, children_copied_eq, beq_folder_iff]
      exact ⟨otherOwn, others, rfl, ownSame, Table.alike_changed _ alike ih⟩
  | single object =>
      obtain ⟨otherObject, rfl, objectSame⟩ := (beq_single_iff object).mp same
      rw [← ObjectDefinition.copied_beq_iff copies] at objectSame
      exact (beq_single_iff _).mpr ⟨otherObject, rfl, objectSame⟩
  | under parent mapping ih =>
      obtain ⟨inside, rfl, insideSame⟩ := (beq_under_iff parent mapping).mp same
      exact (beq_under_iff parent _).mpr ⟨inside, rfl, ih inside insideSame⟩
  | overlay base upper baseIh upperIh =>
      obtain ⟨otherBase, otherUpper, rfl, baseSame, upperSame⟩ :=
        (beq_overlay_iff base upper).mp same
      exact (beq_overlay_iff _ _).mpr
        ⟨otherBase, otherUpper, rfl, baseIh otherBase baseSame, upperIh otherUpper upperSame⟩

section Flattening

variable {objects others : Table ObjectDefinition}

theorem alike_moved (parent : String) (alike : Table.Alike objects.entries others.entries) :
    Table.Alike (moved parent objects) (moved parent others) := by
  unfold Table.Alike moved
  rw [List.forall₂_map_left_iff, List.forall₂_map_right_iff]
  refine List.Forall₂.imp ?_ alike
  rintro entry other ⟨samePath, sameDefinition⟩
  exact ⟨by rw [samePath], sameDefinition⟩

theorem alike_flatten_children {children others : List (String × Mapping)}
    (alike : Table.Alike children others)
    (each : ∀ child ∈ children, ∀ other, (child.2 == other) = true →
      Table.Alike child.2.flatten.entries other.flatten.entries) :
    Table.Alike (flattenChildren children) (flattenChildren others) := by
  induction alike with
  | nil => exact .nil
  | @cons head other rest otherRest same _ ih =>
      rw [List.forall_mem_cons] at each
      rw [flattenChildren, flattenChildren, ← same.1]
      exact Table.alike_append (alike_moved head.1 (each.1 other.2 same.2)) (ih each.2)

theorem alike_flatten (first second : Mapping) (same : (first == second) = true) :
    Table.Alike first.flatten.entries second.flatten.entries := by
  induction first using by_shape generalizing second with
  | flat objects =>
      obtain ⟨others, rfl, objectsSame⟩ := (beq_flat_iff objects).mp same
      exact (Table.beq_iff_alike objects others).mp objectsSame
  | folder own children ih =>
      obtain ⟨otherOwn, others, rfl, ownSame, alike⟩ := (beq_folder_iff own children).mp same
      rw [flatten, flatten]
      refine Table.alike_extend ?_ (alike_flatten_children alike ih)
      exact .cons ⟨rfl, ObjectDefinition.beq_marked_folder ownSame⟩ .nil
  | single object =>
      obtain ⟨otherObject, rfl, objectSame⟩ := (beq_single_iff object).mp same
      exact .cons ⟨rfl, objectSame⟩ .nil
  | under parent mapping ih =>
      obtain ⟨inside, rfl, insideSame⟩ := (beq_under_iff parent mapping).mp same
      rw [flatten, flatten]
      exact Table.alike_of_list (alike_moved parent (ih inside insideSame))
  | overlay base upper baseIh upperIh =>
      obtain ⟨otherBase, otherUpper, rfl, baseSame, upperSame⟩ :=
        (beq_overlay_iff base upper).mp same
      rw [flatten, flatten]
      exact Table.alike_extend (baseIh otherBase baseSame) (upperIh otherUpper upperSame)

end Flattening

end Mapping

/-- Equality that is symmetric and transitive. Only what has some property equals itself. -/
structure PartialEquality (α : Type) [BEq α] (proper : α → Prop) : Prop where
  symm : ∀ first second : α, (first == second) = (second == first)
  trans : ∀ first second third : α, (first == second) = true → (second == third) = true →
    (first == third) = true
  itself : ∀ value : α, (value == value) = true ↔ proper value

/-- Definitions are equal if all that is set in them is, with bodies of one size and one digest,
and mappings if they are built alike of equal definitions. So equality is symmetric and
transitive, and a value equals itself just if every body in it can be hashed. A copy of a value
whose bodies can be read equals it. Equal mappings flatten to equal tables. -/
theorem equality_of_definitions :
    (∀ first second : ObjectDefinition, (first == second) = true ↔
      first.name = second.name ∧ first.properties = second.properties ∧
        first.shouldExist = second.shouldExist ∧
          Option.Rel Body.SameDigest first.body second.body) ∧
    PartialEquality ObjectDefinition (·.Hashable) ∧
    PartialEquality Mapping (fun mapping =>
      ∀ definition ∈ mapping.definitions, definition.Hashable) ∧
    (∀ copy, Body.Copies copy → ∀ definition : ObjectDefinition, definition.IsReadable →
      (definition.copied copy == definition) = true) ∧
    (∀ copy, Body.Copies copy → ∀ mapping : Mapping,
      (∀ definition ∈ mapping.definitions, definition.IsReadable) →
        (mapping.copied copy == mapping) = true) ∧
    ∀ first second : Mapping, (first == second) = true →
      (first.flatten == second.flatten) = true := by
  have definitionItself := ObjectDefinition.beq_itself_iff
  have mappingItself := Mapping.beq_itself_iff
  refine ⟨ObjectDefinition.beq_iff,
    ⟨fun _ _ => BEq.comm, fun _ _ _ => BEq.trans, definitionItself⟩,
    ⟨fun _ _ => BEq.comm, fun _ _ _ => BEq.trans, mappingItself⟩,
    ?definition, ?mapping, ?flatten⟩
  case definition =>
    intro copy copies definition readable
    rw [ObjectDefinition.copied_beq_iff copies, definitionItself]
    exact ObjectDefinition.hashable_of_readable readable
  case mapping =>
    intro copy copies mapping readable
    apply Mapping.copied_beq copies
    rw [mappingItself]
    exact fun definition member =>
      ObjectDefinition.hashable_of_readable (readable definition member)
  case flatten =>
    intro first second same
    exact (Table.beq_iff_alike _ _).mpr (Mapping.alike_flatten first second same)

/-- Copies that hold the zeros which the originals only stand for. A body that cannot be read keeps
a mapping from being equal to itself even below an overlay, where no table shows it. -/
theorem equality_of_definitions_hidden_bodies :
    let hold : Body → Body
      | .zeros size => .buffered (List.replicate size.toNat 0)
      | body => body
    let zeros : ObjectDefinition := { body := some (.zeros 2) }
    let torn : ObjectDefinition := { body := some (.declared 2 [0, 0] (some "torn")) }
    let upper : Mapping := .flat (Table.singleton "x" zeros)
    let sound : Mapping := .overlay (.folder {} [("x", .single zeros)]) upper
    let broken : Mapping := .overlay (.flat (Table.singleton "x" torn)) upper
    Body.Copies hold ∧ zeros.IsReadable ∧ (zeros.copied hold == zeros) = true ∧
      (∀ definition ∈ sound.definitions, definition.IsReadable) ∧
      (sound.copied hold == sound) = true ∧
      ((sound.copied hold).flatten == sound.flatten) = true ∧
      ¬ (broken == broken) = true ∧ (broken.flatten == broken.flatten) = true := by
  intro hold zeros torn upper sound broken
  obtain ⟨_, _, mappings, definitionCopy, mappingCopy, flattened⟩ := equality_of_definitions
  have copies : Body.Copies hold := by
    intro body
    cases body with
    | zeros size => exact ⟨List.length_replicate, rfl, rfl⟩
    | buffered bytes => exact ⟨rfl, rfl, rfl⟩
    | declared size bytes failure ownDigest => exact ⟨rfl, rfl, rfl⟩
  have zerosReadable : zeros.IsReadable := by
    rintro _ ⟨⟩
    rfl
  have plainReadable : ObjectDefinition.IsReadable {} := fun _ no => nomatch no
  have allReadable : ∀ definition ∈ sound.definitions, definition.IsReadable := by
    simpa [sound, upper, Mapping.definitions, Mapping.definitionsInside, Table.singleton] using
      ⟨plainReadable, zerosReadable⟩
  have copied := mappingCopy hold copies sound allReadable
  have upperItself : (upper == upper) = true :=
    (mappings.itself upper).mpr fun definition member =>
      ObjectDefinition.hashable_of_readable
        (allReadable definition (List.mem_append_right _ member))
  have sameTable : broken.flatten = upper.flatten := by
    apply Table.eq_of_get?
    intro key
    have shown : upper.flatten.get? key = if key = "x" then some zeros else none := by
      rw [Mapping.flatten, Table.get?_singleton]
    rw [shown, Mapping.flatten, Table.get?_extend_entries, shown, Mapping.flatten,
      Table.get?_singleton]
    split <;> rfl
  refine ⟨copies, zerosReadable, definitionCopy hold copies zeros zerosReadable, allReadable,
    copied, flattened _ _ copied, ?_, ?_⟩
  · intro brokenItself
    have tornMember : torn ∈ broken.definitions := List.mem_cons_self
    have hashable := (mappings.itself broken).mp brokenItself torn tornMember
    obtain ⟨digest, hashed⟩ := hashable _ rfl
    cases hashed
  · rw [sameTable]
    exact flattened upper upper upperItself

end StorageScenario
