import FleetDeploy.Proofs.Json.Document
import FleetDeploy.Proofs.Yaml.Layout
import FleetDeploy.Yaml.Decode

/-!
# Written records are read back

The document of a written record is a mapping from its keys to what its fields hold, in the
order of the fields.  A record is built from it as from the fields themselves: a text is
read back whatever it looks like, and so is a count.
-/

namespace FleetDeploy.Yaml

open Printer Layout

/-! ## The tree of a record -/

/-- The node of what a field holds. -/
def itemNode : Item → Node
  | .text t => .scalar none none (styleOf t.toList) t.toList
  | .count n => .scalar none none .plain (Nat.toDigits 10 n.toNat)

/-- The nodes of a field. -/
def fieldNodes (field : String × Item) : Node × Node :=
  (.scalar none none .plain field.1.toList, itemNode field.2)

/-- A scalar in a block is a node of its own. -/
theorem blockNode?_scalar (rules : List TagRule) (fuel : Nat) (style : Style) (text : List Char)
    (rest : List Token) (anchors : List (List Char × Nat)) :
    blockNode? rules true Token.endsBlockNode (fuel + 2) ⟨.scalar style text :: rest, anchors⟩ =
      some (.scalar none none style text, ⟨rest, anchors⟩) := by
  rw [blockNode?, if_neg (by simp [Token.endsBlockNode]), node?]
  rfl

theorem blockNode?_item (rules : List TagRule) (fuel : Nat) (value : Item) (rest : List Token)
    (anchors : List (List Char × Nat)) :
    blockNode? rules true Token.endsBlockNode (fuel + 2) ⟨itemToken value :: rest, anchors⟩ =
      some (itemNode value, ⟨rest, anchors⟩) := by
  cases value <;> exact blockNode?_scalar ..

/-- The fields of a record are read up to the end of its block. -/
theorem blockEntries?_fields (rules : List TagRule) (fields : List (String × Item))
    (rest : List Token) (anchors : List (List Char × Nat)) {fuel : Nat}
    (enough : fields.length + 2 ≤ fuel) :
    blockEntries? rules fuel ⟨fields.flatMap fieldTokens ++ .blockEnd :: rest, anchors⟩ =
      some (fields.map fieldNodes, ⟨rest, anchors⟩) := by
  induction fields generalizing fuel with
  | nil =>
      obtain ⟨fuel, rfl⟩ := Nat.exists_eq_add_of_le' (Nat.le_of_succ_le enough)
      rfl
  | cons field fields ih =>
      obtain ⟨key, value⟩ := field
      obtain ⟨fuel, rfl⟩ := Nat.exists_eq_add_of_le' enough
      have remains : fields.length + 2 ≤ fuel + fields.length + 2 := by omega
      have others := ih remains
      rw [List.length_cons, Nat.add_right_comm, ← Nat.add_assoc, ← Nat.add_assoc, blockEntries?]
      simp only [List.flatMap_cons, fieldTokens, List.cons_append, List.nil_append, Reading.goTo]
      rw [blockNode?_scalar]
      change (blockNode? rules true Token.endsBlockNode (fuel + fields.length + 2)
        ⟨itemToken value :: _, anchors⟩).bind _ = _
      rw [blockNode?_item]
      change (blockEntries? rules (fuel + fields.length + 2) _).bind _ = _
      rw [others]
      rfl

/-! ## The document of a record -/

theorem length_fieldTokens (fields : List (String × Item)) :
    fields.length ≤ (fields.flatMap fieldTokens).length := by
  induction fields with
  | nil => exact Nat.zero_le _
  | cons field fields ih =>
      rw [List.flatMap_cons, List.length_append, List.length_cons]
      simp only [fieldTokens, List.length_cons, List.length_nil]
      omega

theorem root?_fields (rules : List TagRule) (fields : List (String × Item)) :
    root? rules (.blockMapping :: (fields.flatMap fieldTokens ++ [.blockEnd])) =
      some (.mapping none (fields.map fieldNodes), []) := by
  have enough : fields.length + 2 ≤
      4 * (fields.flatMap fieldTokens ++ [Token.blockEnd]).length + 7 := by
    have count := length_fieldTokens fields
    rw [List.length_append]
    omega
  have entries := blockEntries?_fields rules fields [] [] enough
  rw [root?, List.length_cons]
  change (Option.bind (blockEntries? rules
    (4 * (fields.flatMap fieldTokens ++ [Token.blockEnd]).length + 7)
    ⟨fields.flatMap fieldTokens ++ [.blockEnd], []⟩) _).map _ = _
  rw [entries]
  rfl

/-- The document of a record that has fields. -/
theorem ofText?_record {field : String × Item} {fields : List (String × Item)}
    (keys : ∀ other ∈ field :: fields, IsKey other.1) :
    Document.ofText? (record (field :: fields)) =
      some (.ofNode (.mapping none ((field :: fields).map fieldNodes))) := by
  have shows := printable_record fun other member => (keys other member).word
  have tree : tree? (.blockMapping :: ((field :: fields).flatMap fieldTokens ++ [.blockEnd])) =
      some (.mapping none ((field :: fields).map fieldNodes)) := by
    change (root? _ _).bind _ = _
    rw [root?_fields]
    rfl
  rw [Document.ofText?, shows.all_isReadable, shows.uniformBreaks, tokens?_record keys]
  change (tree? _).bind _ = _
  rw [tree]
  rfl

end FleetDeploy.Yaml
