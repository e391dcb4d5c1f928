import BitvmNode.Reasoning.Encodings
import BitvmNode.Reasoning.HashTrees

/-!
# Digests of requests

A request is hashed as its texts and the hash of its body, each behind its length.
-/

namespace BitvmNode.Reasoning

section

variable (sha256 : Bytes → Bytes32)

def fieldsPreimage (texts : List String) (bodyHash : Bytes32) : Bytes :=
  (texts.map utf8 ++ [bodyHash.toList]).flatMap hashField

/-- There is no text of `2 ^ 63` bytes to be hashed. -/
def fieldsDigest (texts : List String) (body : Bytes) : Option Bytes32 :=
  if ∀ text ∈ texts, (utf8 text).length < 2 ^ 63 then
    some (sha256 (fieldsPreimage texts (sha256 body))) else none

def fieldsHashed (texts : List String) (body : Bytes) : List Bytes :=
  [body, fieldsPreimage texts (sha256 body)]

end

variable {sha256 : Bytes → Bytes32} {texts others : List String} {body body' : Bytes}
  {digest : Bytes32}

theorem fieldsDigest_eq_some : fieldsDigest sha256 texts body = some digest ↔
      (∀ text ∈ texts, (utf8 text).length < 2 ^ 63) ∧ sha256 (fieldsPreimage texts (sha256 body)) =
        digest := by
  unfold fieldsDigest
  split
  · rename_i hfit
    exact ⟨fun h => ⟨hfit, Option.some.inj h⟩, fun h => congrArg some h.2⟩
  · rename_i hlong
    exact ⟨nofun, fun h => absurd h.1 hlong⟩

theorem fieldsPreimage_inj {hash hash' : Bytes32}
    (htexts : ∀ text ∈ texts, (utf8 text).length < 2 ^ 63)
    (hothers : ∀ text ∈ others, (utf8 text).length < 2 ^ 63)
    (h : fieldsPreimage texts hash = fieldsPreimage others hash') :
    texts = others ∧ hash = hash' := by
  have hfits : ∀ {texts : List String} {hash : Bytes32},
      (∀ text ∈ texts, (utf8 text).length < 2 ^ 63) →
      ∀ field ∈ texts.map utf8 ++ [hash.toList], field.length < 2 ^ 64 := by
    intro texts hash hfit field hfield
    rcases List.mem_append.mp hfield with htext | hbody
    · obtain ⟨text, hmem, rfl⟩ := List.mem_map.mp htext
      have hlength := hfit text hmem
      omega
    · rw [List.mem_singleton.mp hbody, Vector.length_toList]
      omega
  have hlists := flatMap_hashField_inj (hfits htexts) (hfits hothers) h
  obtain ⟨htexts, hhash⟩ := List.append_inj' hlists rfl
  refine ⟨List.map_injective_iff.mpr (fun _ _ => utf8_inj) htexts, ?_⟩
  exact Vector.toList_inj.mp (List.singleton_inj.mp hhash)

theorem fieldsDigest_inj (h : fieldsDigest sha256 texts body = some digest)
    (h' : fieldsDigest sha256 others body' = some digest) : (texts = others ∧ body = body') ∨
      CollisionIn sha256 (fieldsHashed sha256 texts body ++ fieldsHashed sha256 others body') := by
  obtain ⟨hfit, hdigest⟩ := fieldsDigest_eq_some.mp h
  obtain ⟨hfit', hdigest'⟩ := fieldsDigest_eq_some.mp h'
  rcases eq_or_collision sha256 (hdigest.trans hdigest'.symm) with hpreimage | hcollision
  · obtain ⟨htexts, hbody⟩ := fieldsPreimage_inj hfit hfit' hpreimage
    rcases eq_or_collision sha256 hbody with hbody | hcollision
    · exact Or.inl ⟨htexts, hbody⟩
    · right
      apply hcollision.mono
      simp [fieldsHashed]
  · right
    apply hcollision.mono
    simp [fieldsHashed]

end BitvmNode.Reasoning
