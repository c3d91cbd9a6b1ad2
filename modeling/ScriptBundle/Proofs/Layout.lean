import Mathlib.Algebra.GroupWithZero.Nat
import ScriptBundle.Proofs.Artifact
import ScriptBundle.Proofs.Decoding

/-! The artifact taken apart again. Nothing in its text tells where a unit ends, since a unit may hold banners
of its own. But the artifact remembers how many bytes every unit has, and a banner is as long as its name
makes it, so the place of every text is known without reading the artifact. -/
namespace ScriptBundle
open Utf8 (Bytes encode)

namespace Utf8

theorem encodeAppend (first second : String) : encode (first ++ second) = encode first ++ encode second := by
  simp only [encode, String.toList_append, List.flatMap_append]

theorem encodeSize (text : String) : (encode text).length = text.utf8ByteSize := by
  have sizes (chars : List Char) :
      (chars.flatMap String.utf8EncodeChar).length = (String.ofList chars).utf8ByteSize := by
    induction chars with
    | nil => rfl
    | cons c chars ih =>
      rw [List.flatMap_cons, List.length_append, ih, String.length_utf8EncodeChar, String.ofList_cons,
        String.utf8ByteSize_append, String.utf8ByteSize_singleton]
  rw [encode, sizes, String.ofList_toList]

end Utf8

structure Place where
  start : Nat
  length : Nat
  deriving DecidableEq, Repr

namespace Place

def stop (place : Place) : Nat := place.start + place.length

def slice (bytes : Bytes) (place : Place) : Bytes := (bytes.drop place.start).take place.length

def outside (bytes : Bytes) (position : Nat) : List Place → List Bytes
  | [] => [bytes.drop position]
  | place :: places => slice bytes ⟨position, place.start - position⟩ :: outside bytes place.stop places

theorem sliceMiddle (front middle rest : Bytes) :
    slice (front ++ middle ++ rest) ⟨front.length, middle.length⟩ = middle := by
  rw [slice, List.append_assoc, List.drop_left, List.take_left]

end Place

namespace SourceUnit

def bannerSize (name : String) : Nat := 194 + 2 * name.utf8ByteSize

theorem bannerBytes (name : String) : (encode (banner name)).length = bannerSize name := by
  have rules : rule.utf8ByteSize = 80 := rfl
  have feed : "\n".utf8ByteSize = 1 := rfl
  have heading : "// MODULE: ".utf8ByteSize = 11 := rfl
  have source : "// Source: ".utf8ByteSize = 11 := rfl
  have slashes : "// ".utf8ByteSize = 3 := rfl
  have nothing : "".utf8ByteSize = 0 := rfl
  simp only [Utf8.encodeSize, banner, bannerLines, bannerSize, List.map_cons, List.map_nil, String.join_cons,
    String.join_nil, String.utf8ByteSize_append, rules, feed, heading, source, slashes, nothing]
  omega

def extent (unit : SourceUnit) : String × Nat := (unit.name, unit.size)

end SourceUnit

namespace Artifact
open SourceUnit (banner bannerSize bannerBytes render renderParts extent)

/- The places of the texts, if the banner of the first starts at the position. Two line feeds follow every text. -/
def places (position : Nat) : List (String × Nat) → List Place
  | [] => []
  | (name, bytes) :: extents =>
    ⟨position + bannerSize name, bytes⟩ :: places (position + bannerSize name + bytes + 2) extents

def fillers (lead : String) : List String → List String
  | [] => [lead]
  | name :: names => (lead ++ banner name) :: fillers "\n\n" names

def body (units : List SourceUnit) : Bytes := encode (String.join (units.map render))

theorem bodyCons (unit : SourceUnit) (units : List SourceUnit) :
    body (unit :: units) = encode (banner unit.name) ++ encode unit.text ++ encode "\n\n" ++ body units := by
  rw [body, List.map_cons, String.join_cons, renderParts, Utf8.encodeAppend, Utf8.encodeAppend, Utf8.encodeAppend, body]

theorem plainBytes (info : BuildInfo) (units : List SourceUnit) :
    encode (plainText info units) = encode info.header ++ body units :=
  Utf8.encodeAppend _ _

section Step
variable (front : Bytes) (unit : SourceUnit) (units : List SourceUnit)

theorem textBegins :
    front.length + bannerSize unit.name = (front ++ encode (banner unit.name)).length := by
  rw [List.length_append, bannerBytes]

theorem textAround :
    front ++ body (unit :: units) =
      front ++ encode (banner unit.name) ++ encode unit.text ++ (encode "\n\n" ++ body units) := by
  simp only [bodyCons, List.append_assoc]

theorem textSlice :
    Place.slice (front ++ body (unit :: units)) ⟨front.length + bannerSize unit.name, unit.size⟩ =
      encode unit.text := by
  rw [textBegins, textAround, SourceUnit.size, ← Utf8.encodeSize, Place.sliceMiddle]

theorem textEnds :
    front.length + bannerSize unit.name + unit.size =
      (front ++ encode (banner unit.name) ++ encode unit.text).length := by
  rw [List.length_append, ← textBegins, Utf8.encodeSize]
  rfl

theorem textPassed :
    front.length + bannerSize unit.name + unit.size + 2 =
      (front ++ encode (banner unit.name) ++ encode unit.text ++ encode "\n\n").length := by
  rw [List.length_append, ← textEnds]
  rfl

end Step

theorem placesHold (front : Bytes) (units : List SourceUnit) :
    (places front.length (units.map extent)).map (Place.slice (front ++ body units)) =
      units.map fun unit => encode unit.text := by
  induction units generalizing front with
  | nil => rfl
  | cons unit units ih =>
    have later := ih (front ++ encode (banner unit.name) ++ encode unit.text ++ encode "\n\n")
    rw [← textPassed, List.append_assoc, ← textAround] at later
    rw [List.map_cons, List.map_cons, extent, places, List.map_cons, textSlice, later]

theorem outsidePlaces (front : Bytes) (lead : String) (units : List SourceUnit) :
    Place.outside (front ++ encode lead ++ body units) front.length
        (places (front ++ encode lead).length (units.map extent)) =
      (fillers lead (units.map (·.name))).map encode := by
  induction units generalizing front lead with
  | nil =>
    have empty : body [] = [] := rfl
    rw [empty, List.append_nil, List.map_nil, places, Place.outside, List.drop_left]
    rfl
  | cons unit units ih =>
    have opening : (front ++ encode lead).length + bannerSize unit.name - front.length =
        (encode (lead ++ banner unit.name)).length := by
      rw [textBegins, List.append_assoc, ← Utf8.encodeAppend, List.length_append, Nat.add_sub_cancel_left]
    have before : Place.slice (front ++ encode lead ++ body (unit :: units))
        ⟨front.length, (encode (lead ++ banner unit.name)).length⟩ = encode (lead ++ banner unit.name) := by
      rw [textAround, List.append_assoc front, ← Utf8.encodeAppend, List.append_assoc _ (encode unit.text),
        Place.sliceMiddle]
    have later := ih (front ++ encode lead ++ encode (banner unit.name) ++ encode unit.text) "\n\n"
    rw [← textPassed, List.append_assoc, ← textAround, ← textEnds] at later
    rw [List.map_cons, List.map_cons, extent, places, Place.outside, fillers, List.map_cons, opening, before,
      Place.stop, later]

theorem placesStart {position : Nat} {extents : List (String × Nat)} {place : Place}
    (member : place ∈ places position extents) : position ≤ place.start := by
  induction extents generalizing position with
  | nil => cases member
  | cons extent extents ih =>
    rcases List.mem_cons.mp member with rfl | later
    · exact Nat.le_add_right _ _
    · have := ih later
      omega

theorem placesOrdered (position : Nat) (extents : List (String × Nat)) :
    (places position extents).Pairwise fun earlier later => earlier.stop < later.start := by
  induction extents generalizing position with
  | nil => exact .nil
  | cons extent extents ih =>
    refine .cons (fun later member => ?_) (ih _)
    have behind := placesStart member
    show position + bannerSize extent.1 + extent.2 < later.start
    omega

theorem bodyLength (units : List SourceUnit) :
    (body units).length = (units.map fun unit => bannerSize unit.name + unit.size + 2).sum := by
  induction units with
  | nil => rfl
  | cons unit units ih =>
    have passed := textPassed [] unit
    rw [List.nil_append, List.length_nil, Nat.zero_add] at passed
    rw [bodyCons, List.length_append, ← passed, ih, List.map_cons, List.sum_cons]

theorem plainSize (info : BuildInfo) (units : List SourceUnit) :
    (plainText info units).utf8ByteSize = info.header.utf8ByteSize +
      (units.map fun unit => bannerSize unit.name + unit.size + 2).sum := by
  rw [← Utf8.encodeSize, plainBytes, List.length_append, bodyLength, Utf8.encodeSize]

def extents (artifact : Artifact) : List (String × Nat) := artifact.units.map fun unit => (unit.name, unit.bytes)

def takeApart (headerSize : Nat) (artifact : Artifact) : List SourceUnit :=
  List.zipWith (fun unit bytes => ⟨unit.name, unit.ordinal, Utf8.decode bytes⟩) artifact.units
    ((places headerSize artifact.extents).map (Place.slice (encode artifact.text)))

theorem composeExtents (output : String) (downlevel : Bool) (info : BuildInfo) (units : List SourceUnit) :
    (compose output downlevel info units).extents = units.map extent := by
  rw [extents, compose, List.map_map]
  rfl

theorem composeSlices (output : String) (info : BuildInfo) (units : List SourceUnit) :
    let artifact := compose output false info units
    (places info.header.utf8ByteSize artifact.extents).map (Place.slice (encode artifact.text)) =
      units.map fun unit => encode unit.text := by
  have held := placesHold (encode info.header) units
  rw [Utf8.encodeSize, ← plainBytes, ← composeExtents output false info] at held
  exact held

theorem takeApartCompose (output : String) (info : BuildInfo) (units : List SourceUnit) :
    takeApart info.header.utf8ByteSize (compose output false info units) = units := by
  rw [takeApart, composeSlices, compose, List.zipWith_map, List.zipWith_self]
  simp only [Utf8.decodeEncode, List.map_id']

theorem takenApart (output : String) (info : BuildInfo) (units : List SourceUnit) :
    let artifact := compose output false info units
    let texts := places info.header.utf8ByteSize artifact.extents
    texts.map (Place.slice (encode artifact.text)) = units.map (fun unit => encode unit.text) ∧
    texts.Pairwise (fun earlier later => earlier.stop < later.start) ∧
    Place.outside (encode artifact.text) 0 texts = (fillers info.header (units.map (·.name))).map encode ∧
    artifact.size = info.header.utf8ByteSize +
      (artifact.extents.map fun extent => bannerSize extent.1 + extent.2 + 2).sum ∧
    takeApart info.header.utf8ByteSize artifact = units ∧
    ∀ (name : String) (others : List SourceUnit),
      (compose name false info others).text = artifact.text →
      (compose name false info others).units = artifact.units →
      others.map (·.text) = units.map (·.text) := by
  intro artifact texts
  have extents : artifact.extents = units.map extent := composeExtents output false info units
  refine ⟨composeSlices output info units, placesOrdered _ _, ?_, ?_, takeApartCompose output info units, ?_⟩
  · have around := outsidePlaces [] info.header units
    rw [List.nil_append, Utf8.encodeSize, ← plainBytes, ← extents] at around
    exact around
  · rw [extents, List.map_map]
    exact plainSize info units
  · intro name others text same
    have apart : takeApart info.header.utf8ByteSize (compose name false info others) =
        takeApart info.header.utf8ByteSize artifact := by
      simp only [takeApart, Artifact.extents, text, same]
    rw [takeApartCompose, takeApartCompose] at apart
    rw [apart]

end Artifact
end ScriptBundle
