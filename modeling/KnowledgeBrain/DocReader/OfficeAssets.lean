import KnowledgeBrain.Foundation.Keyed
import KnowledgeBrain.DocReader.Anydoc

/-!
# Assets and their names

An asset is named by its place and its media type, so no two assets have one
name.  The name is found again among the pictures of the document where the
asset passes the filter of that list, and it is then resolved to its bytes.
-/

namespace KnowledgeBrain
namespace DocReader
namespace Anydoc

open Foundation
open Chunker (Text)

/-!
# The pictures of a document
-/

/-- A picture in the text: its description and where it comes from. -/
abbrev Picture := Text × ImageSource

mutual

def inlinesPictures : List Inline -> List Picture
  | [] => []
  | inline :: rest => inlinePictures inline ++ inlinesPictures rest

def inlinePictures : Inline -> List Picture
  | .image alt source => [(alt, source)]
  | .link content _ => inlinesPictures content
  | .text _ _ => []
  | .lineBreak => []
  | .anchor _ => []
  | .noteRef _ => []

end

mutual

def blocksPictures : List Block -> List Picture
  | [] => []
  | block :: rest => blockPictures block ++ blocksPictures rest

def blockPictures : Block -> List Picture
  | .heading _ content => inlinesPictures content
  | .paragraph content => inlinesPictures content
  | .list _ _ items => itemsPictures items
  | .table grid => rowsPictures grid
  | .blockQuote inner => blocksPictures inner
  | .codeBlock _ _ => []
  | .rule => []

def itemsPictures : List Item -> List Picture
  | [] => []
  | .mk _ blocks :: rest => blocksPictures blocks ++ itemsPictures rest

def rowsPictures : List (List CellSlot) -> List Picture
  | [] => []
  | row :: rest => rowPictures row ++ rowsPictures rest

def rowPictures : List CellSlot -> List Picture
  | [] => []
  | .origin blocks :: rest => blocksPictures blocks ++ rowPictures rest
  | .covered :: rest => rowPictures rest

end

def documentPictures (doc : Document) : List Picture :=
  blocksPictures doc.blocks ++ doc.notes.flatMap blocksPictures

/-!
# Names
-/

theorem extensionFor_dot (mediaType : Text) :
    exists rest, extensionFor mediaType = '.' :: rest ∧
      forall c, c ∈ ['\n', '\r', '|'] -> c ∉ '.' :: rest := by
  unfold extensionFor
  simp only
  repeat' split
  all_goals
    refine ⟨_, rfl, fun c hc => ?_⟩
    simp only [List.mem_cons, List.not_mem_nil, or_false] at hc
    rcases hc with rfl | rfl | rfl <;> decide

theorem not_mem_assetUrl {c : Char} (hc : c ∈ ['\n', '\r', '|']) (i : Nat) (asset : Asset) :
    c ∉ assetUrl i asset := by
  rcases extensionFor_dot asset.mediaType with ⟨rest, hrest, hextension⟩
  have hother : c ∉ "images/image-".toList ∧ c.isDigit = false := by
    simp only [List.mem_cons, List.not_mem_nil, or_false] at hc
    rcases hc with rfl | rfl | rfl
    · decide
    · decide
    · decide
  unfold assetUrl assetName
  rw [hrest, ← List.append_assoc, ← List.append_assoc, List.mem_append, List.mem_append]
  rintro ((hfront | hdigits) | hlast)
  · exact hother.1 hfront
  · have hdigit := Nat.isDigit_of_mem_toDigits (by decide) (by decide) hdigits
    rw [hother.2] at hdigit
    cases hdigit
  · exact hextension c hc hlast

theorem assetUrl_inj {i j : Nat} {a b : Asset} (h : assetUrl i a = assetUrl j b) : i = j := by
  rcases extensionFor_dot a.mediaType with ⟨rest, hrest, _⟩
  rcases extensionFor_dot b.mediaType with ⟨rest', hrest', _⟩
  unfold assetUrl assetName at h
  rw [List.append_cancel_left_eq, List.append_assoc, List.append_assoc,
    List.append_cancel_left_eq, hrest, hrest'] at h
  exact Nat.succ.inj (toDigits_append_inj (by decide) h).1

/-!
# The list of pictures
-/

/-- The filter of the list of pictures. -/
def Listed (asset : Asset) : Prop :=
  asset.bytes ≠ [] ∧ "image/".toList.isPrefixOf asset.mediaType = true

/-- The picture of the asset at place `i`. -/
def assetImage (i : Nat) (asset : Asset) : StoredImage :=
  ⟨assetName i asset, assetUrl i asset, [], asset.bytes⟩

theorem mem_imagesFromDocument {doc : Document} {image : StoredImage} :
    image ∈ imagesFromDocument doc <->
      exists i asset, doc.assets[i]? = some asset ∧ Listed asset ∧ image = assetImage i asset := by
  unfold imagesFromDocument
  rw [List.mem_filterMap]
  constructor
  · rintro ⟨⟨asset, i⟩, hmem, himage⟩
    have hasset := List.mem_zipIdx_iff_getElem?.mp hmem
    simp only at himage
    split at himage
    · cases himage
    · rename_i hlisted
      rcases not_or.mp hlisted with ⟨hbytes, hmedia⟩
      exact ⟨i, asset, hasset, ⟨hbytes, not_not.mp hmedia⟩, (Option.some.inj himage).symm⟩
  · rintro ⟨i, asset, hasset, hlisted, rfl⟩
    refine ⟨(asset, i), List.mem_zipIdx_iff_getElem?.mpr hasset, ?_⟩
    exact if_neg (not_or.mpr ⟨hlisted.1, not_not.mpr hlisted.2⟩)

theorem nodup_originalRef (doc : Document) :
    ((imagesFromDocument doc).map StoredImage.originalRef).Nodup := by
  have hplaces : doc.assets.zipIdx.Pairwise fun a b => a.2 ≠ b.2 := by
    have hnodup : (doc.assets.zipIdx.map Prod.snd).Nodup := by
      rw [List.zipIdx_map_snd]
      exact List.nodup_range'
    exact List.pairwise_map.mp hnodup
  unfold imagesFromDocument
  rw [List.Nodup, List.pairwise_map, List.pairwise_filterMap]
  apply hplaces.imp
  rintro ⟨a, i⟩ ⟨b, j⟩ hne image himage image' himage' heq
  simp only at himage himage'
  split at himage
  · cases himage
  · split at himage'
    · cases himage'
    · rw [← Option.some.inj himage, ← Option.some.inj himage'] at heq
      exact hne (assetUrl_inj heq)

theorem filter_originalRef {doc : Document} {i : Nat} {asset : Asset}
    (hasset : doc.assets[i]? = some asset) (hlisted : Listed asset) :
    (imagesFromDocument doc).filter
      (fun image => decide (image.originalRef = assetUrl i asset)) = [assetImage i asset] := by
  have hmem : assetImage i asset ∈ imagesFromDocument doc :=
    mem_imagesFromDocument.mpr ⟨i, asset, hasset, hlisted, rfl⟩
  have hfind := findBy_of_mem (nodup_originalRef doc) hmem
  have hfilter := filter_key_eq (nodup_originalRef doc) (assetImage i asset).originalRef
  rw [hfind] at hfilter
  exact hfilter

/-!
# The names are resolved
-/

section Resolving

variable (sha256 : Sha256) (fetch : Nat -> Text -> Option (List UInt8))

/-- A picture as the list of pictures holds it. -/
structure Named (image : StoredImage) : Prop where
  data : image.data ≠ []
  storageKey : image.storageKey = []
  filename : image.filename ≠ []
  originalRef : image.originalRef = "images/".toList ++ image.filename

theorem named_assetImage {i : Nat} {asset : Asset} (h : Listed asset) :
    Named (assetImage i asset) := by
  constructor
  · exact h.1
  · rfl
  · show "image-".toList ++ Nat.toDigits 10 (i + 1) ++ extensionFor asset.mediaType ≠ []
    rw [List.append_assoc]
    exact List.append_ne_nil_of_left_ne_nil (by decide) _
  · rfl

def imageKey (image : StoredImage) : Text :=
  objectKey (sha256.hex image.data)

variable {sha256 fetch}

theorem addAlias_nil (key : Text) (aliases : List (Text × Text)) :
    addAlias key aliases [] = .ok aliases :=
  if_pos (Or.inl rfl)

theorem addAlias_new {key name : Text} {aliases : List (Text × Text)} (hname : name ≠ [])
    (hdir : name ≠ "images/".toList) (hnew : aliases.lookup name = none) :
    addAlias key aliases name = .ok (aliases ++ [(name, key)]) := by
  unfold addAlias
  rw [if_neg (not_or.mpr ⟨hname, hdir⟩), hnew]
  rfl

theorem addAlias_again {key name : Text} {aliases : List (Text × Text)}
    (hold : aliases.lookup name = some key) : addAlias key aliases name = .ok aliases := by
  unfold addAlias
  split
  · rfl
  · rw [hold]
    exact if_neg (not_not.mpr rfl)

/-- A picture with a new name adds this name and its bytes. -/
theorem gatherImage_named {image : StoredImage} (hnamed : Named image) (n : Nat)
    {gathered : Table String (List UInt8) × List (Text × Text)}
    (hnew : gathered.2.lookup image.originalRef = none) :
    gatherImage sha256 fetch gathered (image, n) =
      .ok (insertPayload (sha256.hex image.data) image.data gathered.1,
        gathered.2 ++ [(image.originalRef, imageKey sha256 image)]) := by
  have href : image.originalRef ≠ [] := by
    rw [hnamed.originalRef]
    exact List.append_ne_nil_of_left_ne_nil (by decide) _
  have hdir : image.originalRef ≠ "images/".toList := by
    rw [hnamed.originalRef]
    intro h
    exact hnamed.filename (List.append_cancel_left (h.trans (List.append_nil _).symm))
  have hlookup : (gathered.2 ++ [(image.originalRef, imageKey sha256 image)]).lookup
      image.originalRef = some (imageKey sha256 image) := by
    rw [List.lookup_append, hnew]
    simp
  have haliases : [image.originalRef, image.storageKey, "images/".toList ++ image.filename].foldlM
      (addAlias (imageKey sha256 image)) gathered.2 =
      .ok (gathered.2 ++ [(image.originalRef, imageKey sha256 image)]) := by
    rw [hnamed.storageKey, ← hnamed.originalRef, List.foldlM_cons,
      ok_bind (addAlias_new href hdir hnew), List.foldlM_cons,
      ok_bind (addAlias_nil _ _), List.foldlM_cons,
      ok_bind (addAlias_again hlookup)]
    rfl
  unfold gatherImage
  show (imageData fetch image n >>= _) = _
  have hdata : imageData fetch image n = .ok image.data := if_pos hnamed.data
  rw [ok_bind hdata, reject_bind hnamed.data]
  exact ok_bind haliases

theorem insertPayload_kept {hash other : String} {data : List UInt8}
    {payloads : Table String (List UInt8)} (h : payloads.lookup other ≠ none) :
    (insertPayload hash data payloads).lookup other ≠ none := by
  unfold insertPayload
  rw [Table.lookup_upsert_const]
  split
  · exact Option.some_ne_none data
  · exact h

theorem insertPayload_new (hash : String) (data : List UInt8)
    (payloads : Table String (List UInt8)) :
    (insertPayload hash data payloads).lookup hash ≠ none := by
  unfold insertPayload
  rw [Table.lookup_upsert_const, if_pos rfl]
  exact Option.some_ne_none data

/-- Pictures with different names are all gathered under their names. -/
theorem gather_named {images : List (StoredImage × Nat)}
    (hnamed : forall entry, entry ∈ images -> Named entry.1)
    (hnodup : (images.map fun entry => entry.1.originalRef).Nodup)
    {gathered : Table String (List UInt8) × List (Text × Text)}
    (hnew : forall entry, entry ∈ images -> gathered.2.lookup entry.1.originalRef = none) :
    exists payloads, images.foldlM (gatherImage sha256 fetch) gathered =
        .ok (payloads, gathered.2 ++
          images.map fun entry => (entry.1.originalRef, imageKey sha256 entry.1)) ∧
      (forall hash, gathered.1.lookup hash ≠ none -> payloads.lookup hash ≠ none) ∧
      forall entry, entry ∈ images -> payloads.lookup (sha256.hex entry.1.data) ≠ none := by
  induction images generalizing gathered with
  | nil =>
      exact ⟨gathered.1, by rw [List.map_nil, List.append_nil]; rfl, fun _ h => h, by simp⟩
  | cons entry images ih =>
      rcases entry with ⟨image, n⟩
      rw [List.map_cons, List.nodup_cons] at hnodup
      have hfirst := @gatherImage_named sha256 fetch image (hnamed _ List.mem_cons_self) n gathered
        (hnew _ List.mem_cons_self)
      have hlater : forall entry, entry ∈ images ->
          (gathered.2 ++ [(image.originalRef, imageKey sha256 image)]).lookup
            entry.1.originalRef = none := by
        intro entry hentry
        have hne : entry.1.originalRef ≠ image.originalRef := by
          intro heq
          exact hnodup.1 (heq ▸ List.mem_map_of_mem hentry)
        rw [List.lookup_append, hnew entry (List.mem_cons_of_mem _ hentry), List.lookup_cons,
          beq_eq_false_iff_ne.mpr hne]
        rfl
      rcases @ih (fun entry hentry => hnamed entry (List.mem_cons_of_mem _ hentry)) hnodup.2
        (insertPayload (sha256.hex image.data) image.data gathered.1, _) hlater with
        ⟨payloads, hrun, hkept, hall⟩
      refine ⟨payloads, ?_, ?_, ?_⟩
      · rw [List.foldlM_cons, ok_bind hfirst, hrun, List.map_cons, List.append_assoc,
          List.singleton_append]
      · intro hash hhash
        exact hkept hash (insertPayload_kept hhash)
      · intro other hother
        rcases List.mem_cons.mp hother with rfl | hother
        · exact hkept _ (insertPayload_new _ _ _)
        · exact hall other hother

theorem remoteRef_objectKey {payloads : Table String (List UInt8)} {hash : String}
    (h : payloads.lookup hash ≠ none) (remote : List Text) :
    remoteRef payloads remote (objectKey hash) = .ok remote := by
  have hstrip : stripPrefix "objects/".toList (objectKey hash) = some hash.toList := by
    unfold stripPrefix objectKey
    rw [if_pos (List.isPrefixOf_iff_prefix.mpr (List.prefix_append _ _)), List.drop_left]
  unfold remoteRef
  rw [hstrip]
  show (reject (payloads.lookup (String.ofList hash.toList) = none) _ >>= _) = _
  rw [String.ofList_toList, reject_bind h]
  rfl

end Resolving

end Anydoc
end DocReader
end KnowledgeBrain
