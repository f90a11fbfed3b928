import ClassDiagram.Model.Basic
import ClassDiagram.Proofs.Table

/-!
# Names that are used but not declared

`FirstUses` says what a list of such names should be: it holds the names that are used and not
declared, and no others, in the order of their first use. There is only one such list
(`FirstUses.unique`). Noting one more use keeps the property (`FirstUses.note`), hence
`Model.dangling` has it for all uses of a model. What storing an entity does to the list follows
from the uniqueness: with the stored name taken out, the old list is the list of the new model.
-/

namespace ClassDiagram

/-- The names noted are those that are used and not declared, in the order of their first use. -/
structure FirstUses (declared uses noted : List String) : Prop where
  mem_iff : ∀ name, name ∈ noted ↔ name ∈ uses ∧ name ∉ declared
  ordered : noted.Pairwise fun first second ↦ uses.idxOf first < uses.idxOf second

namespace FirstUses

variable {declared uses noted other : List String}

theorem nil (declared : List String) : FirstUses declared [] [] where
  mem_iff := by simp
  ordered := List.Pairwise.nil

/-- No name is noted twice. -/
theorem nodup (h : FirstUses declared uses noted) : noted.Nodup :=
  h.ordered.imp fun hlt heq ↦ absurd hlt (by simp [heq])

/-- The uses and the declared names determine the list. -/
theorem unique (h : FirstUses declared uses noted) (h' : FirstUses declared uses other) :
    noted = other := by
  have hperm : noted.Perm other := by
    rw [List.perm_ext_iff_of_nodup h.nodup h'.nodup]
    intro name
    rw [h.mem_iff, h'.mem_iff]
  refine hperm.eq_of_pairwise ?_ h.ordered h'.ordered
  intro first second _ _ hlt hgt
  omega

/-- Behind more uses, the names that were noted keep their order. -/
theorem ordered_append (h : FirstUses declared uses noted) (more : List String) :
    noted.Pairwise fun first second ↦
      (uses ++ more).idxOf first < (uses ++ more).idxOf second := by
  refine h.ordered.imp_of_mem ?_
  intro first second hfirst hsecond hlt
  rwa [List.idxOf_append_of_mem ((h.mem_iff first).1 hfirst).1,
    List.idxOf_append_of_mem ((h.mem_iff second).1 hsecond).1]

/-- One more use is noted if its name is neither declared nor noted before. -/
theorem note {model : Model} (h : FirstUses model.entities.keys uses noted) (name : String) :
    FirstUses model.entities.keys (uses ++ [name]) (model.noteDangling noted name) := by
  have hold := h.ordered_append [name]
  by_cases hknown : name ∈ model.entities.keys ∨ name ∈ noted
  · -- the name adds nothing
    have hnote : model.noteDangling noted name = noted := by
      rw [Model.noteDangling, if_pos]
      simpa [Table.contains_iff] using hknown
    rw [hnote]
    refine ⟨?_, hold⟩
    intro used
    rw [h.mem_iff, List.mem_append, List.mem_singleton]
    constructor
    · exact fun hused ↦ ⟨Or.inl hused.1, hused.2⟩
    · rintro ⟨hused | rfl, hundeclared⟩
      · exact ⟨hused, hundeclared⟩
      · exact (h.mem_iff used).1 (hknown.resolve_left hundeclared)
  · -- this is the first use of the name, so it stands behind all uses so far
    rw [not_or] at hknown
    have hnote : model.noteDangling noted name = noted ++ [name] := by
      simp [Model.noteDangling, Table.contains_iff, hknown]
    have hfresh : name ∉ uses := fun hused ↦ hknown.2 ((h.mem_iff name).2 ⟨hused, hknown.1⟩)
    rw [hnote]
    refine ⟨?_, List.pairwise_append.2 ⟨hold, List.pairwise_singleton _ _, ?_⟩⟩
    · intro used
      rw [List.mem_append, List.mem_append, h.mem_iff, List.mem_singleton]
      constructor
      · rintro (hused | rfl)
        · exact ⟨Or.inl hused.1, hused.2⟩
        · exact ⟨Or.inr rfl, hknown.1⟩
      · rintro ⟨hused | rfl, hundeclared⟩
        · exact Or.inl ⟨hused, hundeclared⟩
        · exact Or.inr rfl
    · intro first hfirst second hsecond
      rw [List.mem_singleton] at hsecond
      have hused := ((h.mem_iff first).1 hfirst).1
      rw [hsecond, List.idxOf_append_of_mem hused, List.idxOf_append_of_notMem hfresh]
      exact Nat.lt_add_right _ (List.idxOf_lt_length_of_mem hused)

/-- Any number of further uses are noted as one list of uses. -/
theorem noteAll {model : Model} (h : FirstUses model.entities.keys uses noted)
    (more : List String) :
    FirstUses model.entities.keys (uses ++ more) (more.foldl model.noteDangling noted) := by
  induction more generalizing uses noted with
  | nil => simpa using h
  | cons name rest ih =>
      have hrest := ih (h.note name)
      rwa [List.append_assoc, List.singleton_append] at hrest

/-- If one more name is declared, it is taken out and the rest keeps its order. -/
theorem declare (h : FirstUses declared uses noted) {declared' : List String} {name : String}
    (hdeclared : ∀ used, used ∈ declared' ↔ used = name ∨ used ∈ declared) :
    FirstUses declared' uses (noted.filter (· ≠ name)) where
  mem_iff := by
    intro used
    rw [List.mem_filter, h.mem_iff, hdeclared, not_or, decide_eq_true_eq, and_assoc,
      and_comm (a := used ∉ declared)]
  ordered := h.ordered.filter _

end FirstUses

namespace Model

/-- The dangling names of a model are the first uses of its undeclared names. -/
theorem firstUses_dangling (model : Model) :
    FirstUses model.entities.keys model.references model.dangling :=
  (FirstUses.nil _).noteAll model.references

theorem mem_references_iff {model : Model} {name : String} :
    name ∈ model.references ↔
      (∃ link ∈ model.relationships, name = link.source ∨ name = link.target) ∨
        ∃ rule ∈ model.constraints, name = rule.target := by
  simp [references, eq_comm]

end Model

/-- The dangling names of a model are listed once each. They are the names that a relationship or a
constraint uses and that no entity has, in the order of their first use, where the relationships
come first with their sources before their targets. There are none exactly if every name that is
used is declared. Storing an entity under a name takes that name out of the list and leaves the
others in their order. -/
theorem dangling_exact (model : Model) :
    let uses := model.relationships.flatMap (fun link ↦ [link.source, link.target]) ++
      model.constraints.map fun rule ↦ rule.target
    model.dangling.Nodup ∧
    (∀ name, name ∈ model.dangling ↔
      ((∃ link ∈ model.relationships, name = link.source ∨ name = link.target) ∨
        ∃ rule ∈ model.constraints, name = rule.target) ∧ name ∉ model.entities.keys) ∧
    (model.dangling.Pairwise fun first second ↦ uses.idxOf first < uses.idxOf second) ∧
    (model.dangling = [] ↔ ∀ name ∈ uses, name ∈ model.entities.keys) ∧
    ∀ name entity, { model with entities := model.entities.insert name entity }.dangling =
      model.dangling.filter (· ≠ name) := by
  intro uses
  have hfirst := model.firstUses_dangling
  refine ⟨hfirst.nodup, ?_, hfirst.ordered, ?_, ?_⟩
  · intro name
    rw [hfirst.mem_iff, Model.mem_references_iff]
  · rw [List.eq_nil_iff_forall_not_mem]
    refine forall_congr' fun name ↦ ?_
    rw [hfirst.mem_iff, not_and, not_not]
    exact Iff.rfl
  · intro name entity
    have hstored := Model.firstUses_dangling
      { model with entities := model.entities.insert name entity }
    exact hstored.unique (hfirst.declare fun used ↦ Table.mem_keys_insert)

end ClassDiagram
