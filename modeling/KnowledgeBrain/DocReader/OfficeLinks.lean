import KnowledgeBrain.Foundation.Occurrences
import KnowledgeBrain.DocReader.OfficeAssets

/-!
# Links of office documents

A picture of an asset with a name is written as a link.  The name stays as it
is wherever the picture is nested, so all of these links are in the text, one
behind the other.  Each of them is found again among the pictures of the
document where its asset passes the filter of that list, and it is read back as
it was written where its description does not end it.
-/

namespace KnowledgeBrain
namespace DocReader
namespace Anydoc

open Foundation
open Chunker (Text trim strLines stripReturn)

/-- What stands behind the description of a picture. -/
def linkEnd (url : Text) : Text :=
  ']' :: (('(' :: url) ++ [')'])

/-!
# Names in the text
-/

theorem getElem?_assetUrls (assets : List Asset) (id : Nat) :
    (assetUrls assets)[id]? = assets[id]?.map fun asset =>
      if asset.bytes = [] then none else some (assetUrl id asset) := by
  unfold assetUrls
  rw [List.getElem?_map, List.getElem?_zipIdx, Option.map_map]
  cases assets[id]? with
  | none =>
      rfl
  | some asset =>
      rw [Option.map_some, Option.map_some, Function.comp_apply, Nat.zero_add]

/-- A link is written for an asset exactly when the asset has bytes. -/
theorem rewriteSource_eq_external {assets : List Asset} {id : Nat} {url : Text} :
    rewriteSource (assetUrls assets) (.asset id) = .external url <->
      exists asset, assets[id]? = some asset ∧ asset.bytes ≠ [] ∧ url = assetUrl id asset := by
  unfold rewriteSource
  dsimp only
  rw [getElem?_assetUrls]
  cases hasset : assets[id]? with
  | none =>
      constructor
      · intro h
        cases h
      · rintro ⟨asset, h, _⟩
        cases h
  | some asset =>
      rw [Option.map_some]
      by_cases hbytes : asset.bytes = []
      · rw [if_pos hbytes]
        constructor
        · intro h
          cases h
        · rintro ⟨other, h, hne, _⟩
          cases h
          exact absurd hbytes hne
      · rw [if_neg hbytes]
        constructor
        · intro h
          cases h
          exact ⟨asset, rfl, hbytes, rfl⟩
        · rintro ⟨other, h, _, rfl⟩
          cases h
          rfl

/-!
# The links that are written
-/

/-- The end of the link that is written for a picture of an asset with a name. -/
def assetLink (urls : List (Option Text)) : Picture -> Option Text
  | (_, .asset id) =>
      match rewriteSource urls (.asset id) with
      | .external url => some (linkEnd url)
      | _ => none
  | _ => none

def assetLinks (urls : List (Option Text)) (pictures : List Picture) : List Text :=
  pictures.filterMap (assetLink urls)

/-- The end of a link whose name stays as it is in a cell and on a line. -/
def PlainEnd (word : Text) : Prop :=
  exists url, word = linkEnd url ∧ '\n' ∉ url ∧ '\r' ∉ url ∧ '|' ∉ url

section Written

variable {words : List Text} (hplain : forall word, word ∈ words -> PlainEnd word)

include hplain

theorem words_ne_nil : forall word, word ∈ words -> word ≠ [] := by
  intro word hmem
  rcases hplain word hmem with ⟨url, rfl, _⟩
  exact List.cons_ne_nil _ _

variable {t : Text}

theorem inOrder_trim (h : InOrder words t) : InOrder words (trim t) := by
  apply InOrder.dropWhileEnd
  · apply h.dropWhile
    intro word hmem
    rcases hplain word hmem with ⟨url, rfl, _⟩
    exact ⟨']', _, rfl, by decide⟩
  · intro word hmem
    rcases hplain word hmem with ⟨url, rfl, _⟩
    exact ⟨']' :: '(' :: url, ')', rfl, by decide⟩

theorem inParts_none (h : InOrder words ([] : Text)) : InParts words ([] : List Text) :=
  h.of_nil (words_ne_nil hplain)

theorem inParts_renderParagraph (h : InOrder words t) :
    InParts words (renderParagraph t).toList := by
  have htrim := inOrder_trim hplain h
  unfold renderParagraph
  split
  · next hnil =>
      rw [hnil] at htrim
      exact inParts_none hplain htrim
  · exact inParts_single htrim

theorem inParts_renderHeading (level : Nat) (h : InOrder words t) :
    InParts words (renderHeading level t).toList := by
  have htrim := inOrder_trim hplain h
  unfold renderHeading
  simp only
  split
  · next hnil =>
      rw [hnil] at htrim
      exact inParts_none hplain htrim
  · exact inParts_single ((htrim.behind [' ']).behind _)

omit hplain in
theorem replaceChar_absent {word : Text} {c : Char} (replacement : Text) (hc : c ∉ word) :
    replaceChar c replacement word = word := by
  unfold replaceChar
  induction word with
  | nil =>
      rfl
  | cons d word ih =>
      rw [List.mem_cons, not_or] at hc
      rw [List.flatMap_cons, ih hc.2, if_neg (Ne.symm hc.1)]
      rfl

theorem inOrder_escapeCell (h : InOrder words t) : InOrder words (escapeCell t) := by
  have hbar : InOrder words (replaceChar '|' ['\\', '|'] t) := by
    apply h.flatMap
    intro word hmem
    rcases hplain word hmem with ⟨url, rfl, _, _, hbar⟩
    exact replaceChar_absent _ (by simp [linkEnd, hbar])
  apply hbar.flatMap
  intro word hmem
  rcases hplain word hmem with ⟨url, rfl, hfeed, _⟩
  exact replaceChar_absent _ (by simp [linkEnd, hfeed])

theorem inOrder_stripReturn (h : InOrder words t) : InOrder words (stripReturn t) := by
  unfold stripReturn
  split
  · next hlast =>
      rcases List.getLast?_eq_some_iff.mp hlast with ⟨front, rfl⟩
      have hends : forall word, word ∈ words -> '\r' ∉ word := by
        intro word hmem
        rcases hplain word hmem with ⟨url, rfl, _, hreturn, _⟩
        simp [linkEnd, hreturn]
      rcases h.parted hends with ⟨first, later, rfl, hfirst, hlater⟩
      have hnil := hlater.of_nil fun word hmem =>
        words_ne_nil hplain word (List.mem_append_right first hmem)
      rw [hnil, List.append_nil, List.dropLast_concat]
      exact hfirst
  · exact h

/-- No link is divided between two lines. -/
theorem inParts_strLines (h : InOrder words t) : InParts words (strLines t) := by
  induction t using Chunker.linesInduction generalizing words with
  | hnil =>
      exact inParts_none hplain h
  | hlast t hfeed hne =>
      rw [Chunker.strLines_of_no_feed hfeed hne]
      exact inParts_single h
  | hline line t hfeed ih =>
      have hfeeds : forall word, word ∈ words -> '\n' ∉ word := by
        intro word hmem
        rcases hplain word hmem with ⟨url, rfl, hfeed, _⟩
        simp [linkEnd, hfeed]
      rcases h.parted hfeeds with ⟨first, later, rfl, hfirst, hlater⟩
      rw [Chunker.strLines_cons hfeed]
      refine ⟨first, later, rfl, ?_, ?_⟩
      · apply inOrder_stripReturn _ hfirst
        exact fun word hmem => hplain word (List.mem_append_left later hmem)
      · apply ih _ hlater
        exact fun word hmem => hplain word (List.mem_append_right first hmem)

theorem inParts_renderQuote {parts : List Text} (h : InParts words parts) :
    InParts words (renderQuote parts).toList := by
  have hbody := h.intercalate "\n\n".toList
  unfold renderQuote
  simp only
  split
  · next hnil =>
      rw [show List.intercalate _ parts = [] from hnil] at hbody
      exact inParts_none hplain hbody
  · apply inParts_single
    apply InParts.intercalate
    apply (inParts_strLines hplain hbody).map
    intro line
    split
    · next hline =>
        exact ⟨['>'], by rw [hline]; rfl⟩
    · exact ⟨"> ".toList, rfl⟩

theorem inParts_renderList {items : List (Text × List Text)}
    (h : InParts words (items.flatMap Prod.snd)) : InParts words (renderList items).toList := by
  unfold renderList
  split
  · next hnil =>
      rw [hnil] at h
      exact h
  · apply inParts_single
    apply InParts.intercalate
    refine h.flatMap hplain ?_
    rintro ⟨label, inner⟩ _ words hplain hinner
    cases inner with
    | nil =>
        cases hinner
        exact inParts_single trivial
    | cons first rest =>
        rcases hinner with ⟨own, later, rfl, hown, hlater⟩
        refine ⟨own, later, rfl, (hown.behind [' ']).behind label, ?_⟩
        rw [← List.flatMap_singleton' rest] at hlater
        refine hlater.flatMap (fun word hmem => hplain word (List.mem_append_right own hmem)) ?_
        intro extra _ words hplain hextra
        rcases hextra with ⟨own, _, rfl, hown, hnone⟩
        cases hnone
        rw [List.append_nil] at hplain ⊢
        exact (inParts_strLines hplain hown).map fun line => ⟨"  ".toList, rfl⟩

omit hplain in
theorem inOrder_rowLine {cells : List Text} (h : InParts words cells) :
    InOrder words (rowLine cells) :=
  ((h.intercalate " | ".toList).behind "| ".toList).before " |".toList

theorem inParts_resize {rows : List (List Text)} {width : Nat} (h : InParts words rows.flatten)
    (hwidth : forall row, row ∈ rows -> row.length ≤ width) :
    InParts words (rows.map (resize width)).flatten := by
  rw [← List.flatMap_id] at h
  rw [← List.flatMap_def]
  refine h.flatMap hplain ?_
  intro row hrow words _ hwords
  unfold resize
  rw [List.take_of_length_le (hwidth row hrow), ← List.append_nil words]
  exact hwords.append (inParts_replicate_nil _)

theorem inOrder_rows {rows : List (List Text)} (h : InParts words rows.flatten) :
    InOrder words (rows.flatMap fun row => rowLine row ++ ['\n']) := by
  rw [List.flatMap_def]
  apply InParts.flatten
  rw [List.map_eq_flatMap]
  rw [← List.flatMap_id] at h
  refine h.flatMap hplain ?_
  intro row _ words _ hwords
  exact inParts_single ((inOrder_rowLine hwords).before ['\n'])

theorem inParts_renderTable {grid : List (List (Option Text))}
    (h : InParts words (grid.flatMap fun row => row.filterMap id)) :
    InParts words (renderTable grid).toList := by
  unfold renderTable
  simp only
  generalize hrows : (grid.map fun row => row.filterMap id).filter (· ≠ []) = rows
  have hflat : InParts words rows.flatten := by
    rw [← hrows, List.flatten_filter_ne_nil, ← List.flatMap_def]
    exact h
  have hresized := inParts_resize hplain hflat fun row => length_le_tableWidth
  split
  · next hnil =>
      rw [hnil] at hresized
      exact hresized
  · next header body hcons =>
      split
      · next hwidth =>
          have hnone : (rows.map (resize (tableWidth rows))).flatten = [] := by
            simp [hwidth, resize]
          rw [hnone] at hresized
          exact hresized
      · rw [hcons, List.flatten_cons] at hresized
        rcases hresized.split with ⟨first, later, rfl, hheader, hbody⟩
        have hrows := inOrder_rows
          (fun word hmem => hplain word (List.mem_append_right first hmem)) hbody
        apply inParts_single
        exact ((((inOrder_rowLine hheader).before _).before _).before _).append hrows

end Written

theorem assetLinks_append (urls : List (Option Text)) (pictures more : List Picture) :
    assetLinks urls (pictures ++ more) = assetLinks urls pictures ++ assetLinks urls more :=
  List.filterMap_append

/-- The names that pictures are given stay as they are in a cell and on a line. -/
def PlainUrls (urls : List (Option Text)) : Prop :=
  forall id url, rewriteSource urls (.asset id) = .external url ->
    '\n' ∉ url ∧ '\r' ∉ url ∧ '|' ∉ url

theorem PlainUrls.plain {urls : List (Option Text)} (h : PlainUrls urls)
    (pictures : List Picture) : forall word, word ∈ assetLinks urls pictures -> PlainEnd word := by
  intro word hmem
  rcases List.mem_filterMap.mp hmem with ⟨⟨alt, source⟩, _, hlink⟩
  cases source with
  | asset id =>
      unfold assetLink at hlink
      simp only at hlink
      split at hlink
      · next url hsource =>
          cases hlink
          exact ⟨url, rfl, h id url hsource⟩
      · cases hlink
  | external url =>
      cases hlink
  | unavailable =>
      cases hlink

/-!
## The walk that renders

It comes to every picture that the walk over the pictures comes to, in the same order.
-/

section Walk

variable {urls : List (Option Text)} (label : MarkerKind -> Nat -> Text)

/-- The link of a picture is written with its end, and no link for an asset without a name. -/
theorem renderInline_asset (alt : Text) (id : Nat) :
    renderInline (rewriteInline urls (.image alt (.asset id))) =
      match rewriteSource urls (.asset id) with
      | .external url => "![".toList ++ (trim alt ++ linkEnd url)
      | _ => trim alt := by
  rw [rewriteInline]
  cases rewriteSource urls (.asset id) with
  | external url =>
      rw [renderInline]
      simp only [linkEnd, List.append_assoc]
      rfl
  | asset other =>
      rfl
  | unavailable =>
      rfl

mutual

theorem inOrder_inlines (content : List Inline) :
    InOrder (assetLinks urls (inlinesPictures content))
      (renderInlines (rewriteInlines urls content)) := by
  cases content with
  | nil =>
      trivial
  | cons inline rest =>
      rw [inlinesPictures, assetLinks_append, rewriteInlines, renderInlines]
      exact (inOrder_inline inline).append (inOrder_inlines rest)

theorem inOrder_inline (inline : Inline) :
    InOrder (assetLinks urls (inlinePictures inline))
      (renderInline (rewriteInline urls inline)) := by
  cases inline with
  | image alt source =>
      cases source with
      | asset id =>
          rw [renderInline_asset]
          unfold inlinePictures assetLinks assetLink
          cases hsource : rewriteSource urls (.asset id) with
          | external url =>
              simp only [List.filterMap_cons, hsource, List.filterMap_nil]
              exact ((inOrder_self (linkEnd url)).behind (trim alt)).behind _
          | asset other =>
              simp only [List.filterMap_cons, hsource, List.filterMap_nil]
              trivial
          | unavailable =>
              simp only [List.filterMap_cons, hsource, List.filterMap_nil]
              trivial
      | external url =>
          trivial
      | unavailable =>
          trivial
  | link content target =>
      rw [inlinePictures, rewriteInline, renderInline]
      split
      · exact inOrder_inlines content
      · exact ((((inOrder_inlines content).behind ['[']).before _).before _).before _
  | text text style =>
      trivial
  | lineBreak =>
      trivial
  | anchor name =>
      trivial
  | noteRef id =>
      trivial

end

mutual

theorem inParts_blocks (hurls : PlainUrls urls) (blocks : List Block) :
    InParts (assetLinks urls (blocksPictures blocks))
      (renderBlocks label (rewriteBlocks urls blocks)) := by
  cases blocks with
  | nil =>
      rfl
  | cons block rest =>
      rw [blocksPictures, assetLinks_append, rewriteBlocks, renderBlocks]
      exact (inParts_block hurls block).append (inParts_blocks hurls rest)

theorem inParts_block (hurls : PlainUrls urls) (block : Block) :
    InParts (assetLinks urls (blockPictures block))
      (renderBlock label (rewriteBlock urls block)).toList := by
  have hplain := hurls.plain (blockPictures block)
  cases block with
  | heading level content =>
      exact inParts_renderHeading hplain level (inOrder_inlines content)
  | paragraph content =>
      exact inParts_renderParagraph hplain (inOrder_inlines content)
  | list start marker items =>
      exact inParts_renderList hplain (inParts_items hurls start marker 0 items)
  | table grid =>
      exact inParts_renderTable hplain (inParts_rows hurls grid)
  | blockQuote inner =>
      exact inParts_renderQuote hplain (inParts_blocks hurls inner)
  | codeBlock lang text =>
      exact inParts_single trivial
  | rule =>
      exact inParts_single trivial

theorem inParts_items (hurls : PlainUrls urls) (start : Nat) (marker : MarkerKind) (i : Nat)
    (items : List Item) :
    InParts (assetLinks urls (itemsPictures items))
      ((renderItems label start marker i (rewriteItems urls items)).flatMap Prod.snd) := by
  cases items with
  | nil =>
      rfl
  | cons item rest =>
      rcases item with ⟨markerLabel, blocks⟩
      rw [itemsPictures, assetLinks_append, rewriteItems, renderItems, List.flatMap_cons]
      exact (inParts_blocks hurls blocks).append (inParts_items hurls start marker (i + 1) rest)

theorem inParts_rows (hurls : PlainUrls urls) (grid : List (List CellSlot)) :
    InParts (assetLinks urls (rowsPictures grid))
      ((renderRows label (rewriteRows urls grid)).flatMap fun row => row.filterMap id) := by
  cases grid with
  | nil =>
      rfl
  | cons row rest =>
      rw [rowsPictures, assetLinks_append, rewriteRows, renderRows, List.flatMap_cons]
      exact (inParts_row hurls row).append (inParts_rows hurls rest)

theorem inParts_row (hurls : PlainUrls urls) (row : List CellSlot) :
    InParts (assetLinks urls (rowPictures row))
      ((renderRow label (rewriteRow urls row)).filterMap id) := by
  cases row with
  | nil =>
      rfl
  | cons slot rest =>
      cases slot with
      | origin blocks =>
          rw [rowPictures, assetLinks_append, rewriteRow, renderRow]
          refine ⟨_, _, rfl, ?_, inParts_row hurls rest⟩
          apply inOrder_escapeCell (hurls.plain _)
          exact (inParts_blocks hurls blocks).intercalate [' ']
      | covered =>
          rw [rowPictures, rewriteRow, renderRow]
          exact inParts_row hurls rest

end

theorem inParts_notes (hurls : PlainUrls urls) (notes : List (List Block)) :
    InParts (assetLinks urls (notes.flatMap blocksPictures))
      ((notes.map (rewriteBlocks urls)).flatMap (renderBlocks label)) := by
  induction notes with
  | nil =>
      rfl
  | cons note notes ih =>
      rw [List.flatMap_cons, assetLinks_append, List.map_cons, List.flatMap_cons]
      exact (inParts_blocks label hurls note).append ih

end Walk

theorem plainUrls_assetUrls (assets : List Asset) : PlainUrls (assetUrls assets) := by
  intro id url hsource
  rcases rewriteSource_eq_external.mp hsource with ⟨asset, _, _, rfl⟩
  exact ⟨not_mem_assetUrl (by decide) id asset, not_mem_assetUrl (by decide) id asset,
    not_mem_assetUrl (by decide) id asset⟩

/-- Every link of an asset with a name is written, one behind the other. -/
theorem inOrder_documentToGfm (label : MarkerKind -> Nat -> Text) (doc : Document) :
    InOrder (assetLinks (assetUrls doc.assets) (documentPictures doc))
      (documentToGfm label (rewriteAssetImages doc)) := by
  have hurls := plainUrls_assetUrls doc.assets
  unfold documentPictures documentToGfm
  rw [assetLinks_append]
  exact ((inParts_blocks label hurls doc.blocks).append
    (inParts_notes label hurls doc.notes)).intercalate "\n\n".toList

/-!
# Links and pictures agree
-/

/-- The link with the description `alt` that is written for an asset names one picture, which has
the bytes of the asset; the reader of references reads it as it was written; and its name is
replaced by a key that has a payload. -/
structure LinkAgrees (doc : Document) (alt url : Text) (id : Nat) (asset : Asset) : Prop where
  picture : exists image,
    (imagesFromDocument doc).filter (fun image => decide (image.originalRef = url)) = [image] ∧
      image.data = asset.bytes
  read : exists link,
    renderInline (rewriteInline (assetUrls doc.assets) (.image alt (.asset id))) =
      "![".toList ++ link ∧ cutAt [']', '('] link = some (trim alt, url ++ [')'])
  resolved : forall (sha256 : Sha256) (fetch : Nat -> Text -> Option (List UInt8)),
    exists payloads aliases,
      (imagesFromDocument doc).zipIdx.foldlM (gatherImage sha256 fetch) (Table.empty, []) =
        .ok (payloads, aliases) ∧
      aliases.lookup url = some (objectKey (sha256.hex asset.bytes)) ∧
      forall remote, remoteRef payloads remote (objectKey (sha256.hex asset.bytes)) = .ok remote

/-- The links of the rewritten document are those of its named pictures, and every one of them
agrees with the list of pictures. -/
structure LinksAgree (doc : Document) : Prop where
  written : forall label, InOrder (assetLinks (assetUrls doc.assets) (documentPictures doc))
    (documentToGfm label (rewriteAssetImages doc))
  unnamed : forall (alt : Text) (id : Nat),
    rewriteSource (assetUrls doc.assets) (.asset id) = .asset id ->
      renderInline (rewriteInline (assetUrls doc.assets) (.image alt (.asset id))) = trim alt
  agrees : forall (alt : Text) (id : Nat) (url : Text),
    (alt, ImageSource.asset id) ∈ documentPictures doc ->
      rewriteSource (assetUrls doc.assets) (.asset id) = .external url ->
        exists asset, doc.assets[id]? = some asset ∧ LinkAgrees doc alt url id asset

/-- Every asset with bytes that a picture refers to is listed, and no description ends its link. -/
def LinkedAssetsListed (doc : Document) : Prop :=
  forall (alt : Text) (id : Nat) (asset : Asset),
    (alt, ImageSource.asset id) ∈ documentPictures doc -> doc.assets[id]? = some asset ->
      asset.bytes ≠ [] ->
        "image/".toList.isPrefixOf asset.mediaType = true ∧ ¬ [']', '('] <:+: trim alt

/-- A description is read back up to the end of its link when it does not hold one itself. -/
theorem cutAt_linkEnd {alt url : Text} :
    cutAt [']', '('] (alt ++ linkEnd url) = some (alt, url ++ [')']) <->
      ¬ [']', '('] <:+: alt := by
  constructor
  · intro hcut hinside
    rcases hinside with ⟨before, behind, rfl⟩
    rw [List.append_assoc, List.append_assoc, List.append_assoc] at hcut
    have hle := cutAt_le hcut
    simp only [List.length_append, List.length_cons, List.length_nil] at hle
    omega
  · intro habsent
    induction alt with
    | nil =>
        rfl
    | cons c alt ih =>
        have hstart : ¬ [']', '('] <+: c :: (alt ++ linkEnd url) := by
          intro hstart
          cases alt with
          | nil =>
              have hsecond := (List.cons_prefix_cons.mp
                (List.cons_prefix_cons.mp hstart).2).1
              exact absurd hsecond (by decide)
          | cons d alt =>
              apply habsent
              have hfirst := (List.cons_prefix_cons.mp hstart)
              have hsecond := (List.cons_prefix_cons.mp hfirst.2).1
              rw [← hfirst.1, ← hsecond]
              exact (List.prefix_append [']', '('] alt).isInfix
        rw [List.cons_append, cutAt_of_no_start hstart, ih fun h => habsent (List.infix_cons h)]
        rfl

theorem resolved_of_listed {doc : Document} {id : Nat} {asset : Asset}
    (hasset : doc.assets[id]? = some asset) (hlisted : Listed asset) (sha256 : Sha256)
    (fetch : Nat -> Text -> Option (List UInt8)) :
    exists payloads aliases,
      (imagesFromDocument doc).zipIdx.foldlM (gatherImage sha256 fetch) (Table.empty, []) =
        .ok (payloads, aliases) ∧
      aliases.lookup (assetUrl id asset) = some (objectKey (sha256.hex asset.bytes)) ∧
      forall remote,
        remoteRef payloads remote (objectKey (sha256.hex asset.bytes)) = .ok remote := by
  have hfirst : (imagesFromDocument doc).zipIdx.map (fun entry => entry.1.originalRef) =
      (imagesFromDocument doc).map StoredImage.originalRef := by
    have hzip := congrArg (List.map StoredImage.originalRef)
      (List.zipIdx_map_fst 0 (imagesFromDocument doc))
    rw [List.map_map] at hzip
    exact hzip
  have hnodup := nodup_originalRef doc
  rw [← hfirst] at hnodup
  have hnamed : forall entry, entry ∈ (imagesFromDocument doc).zipIdx -> Named entry.1 := by
    intro entry hentry
    rcases mem_imagesFromDocument.mp (List.fst_mem_of_mem_zipIdx hentry) with
      ⟨i, other, _, hother, himage⟩
    rw [himage]
    exact named_assetImage hother
  rcases @gather_named sha256 fetch _ hnamed hnodup (Table.empty, []) (fun _ _ => rfl) with
    ⟨payloads, hrun, _, hall⟩
  have hmem : assetImage id asset ∈ imagesFromDocument doc :=
    mem_imagesFromDocument.mpr ⟨id, asset, hasset, hlisted, rfl⟩
  rcases List.mem_iff_getElem?.mp hmem with ⟨n, hn⟩
  have hentry : (assetImage id asset, n) ∈ (imagesFromDocument doc).zipIdx :=
    List.mem_zipIdx_iff_getElem?.mpr hn
  refine ⟨payloads, _, hrun, ?_, remoteRef_objectKey (hall _ hentry)⟩
  apply Table.lookup_rows_of_mem
  · rw [List.nil_append, List.map_map]
    exact hnodup
  · exact List.mem_map_of_mem (f := fun entry : StoredImage × Nat =>
      (entry.1.originalRef, imageKey sha256 entry.1)) hentry

theorem renderInline_unnamed {urls : List (Option Text)} {id : Nat}
    (h : rewriteSource urls (.asset id) = .asset id) (alt : Text) :
    renderInline (rewriteInline urls (.image alt (.asset id))) = trim alt := by
  rw [renderInline_asset, h]

theorem linksAgree_iff (doc : Document) : LinksAgree doc <-> LinkedAssetsListed doc := by
  constructor
  · intro h alt id asset hpicture hasset hbytes
    have hsource := rewriteSource_eq_external.mpr ⟨asset, hasset, hbytes, rfl⟩
    rcases h.agrees alt id _ hpicture hsource with ⟨other, hother, hagrees⟩
    constructor
    · rcases hagrees.picture with ⟨image, hfilter, _⟩
      have hmem : image ∈ (imagesFromDocument doc).filter
          (fun image => decide (image.originalRef = assetUrl id asset)) := by
        rw [hfilter]
        exact List.mem_singleton.mpr rfl
      rcases List.mem_filter.mp hmem with ⟨himage, href⟩
      rcases mem_imagesFromDocument.mp himage with ⟨j, listed, hj, hlisted, rfl⟩
      have hplace : j = id := assetUrl_inj (of_decide_eq_true href)
      rw [hplace, hasset] at hj
      rw [Option.some.inj hj]
      exact hlisted.2
    · rcases hagrees.read with ⟨link, hlink, hcut⟩
      rw [renderInline_asset, hsource] at hlink
      rw [← List.append_cancel_left hlink] at hcut
      exact cutAt_linkEnd.mp hcut
  · intro h
    refine ⟨fun label => inOrder_documentToGfm label doc,
      fun alt id hsource => renderInline_unnamed hsource alt, ?_⟩
    intro alt id url hpicture hsource
    rcases rewriteSource_eq_external.mp hsource with ⟨asset, hasset, hbytes, rfl⟩
    rcases h alt id asset hpicture hasset hbytes with ⟨hmedia, halt⟩
    have hlisted : Listed asset := ⟨hbytes, hmedia⟩
    refine ⟨asset, hasset, ?_, ?_, ?_⟩
    · exact ⟨assetImage id asset, filter_originalRef hasset hlisted, rfl⟩
    · refine ⟨trim alt ++ linkEnd (assetUrl id asset), ?_, cutAt_linkEnd.mpr halt⟩
      rw [renderInline_asset, hsource]
    · exact resolved_of_listed hasset hlisted

/-- A picture whose media type is written in capitals. -/
def capitalDocument : Document where
  blocks := [.paragraph [.image ['a'] (.asset 0)]]
  notes := []
  assets := [⟨"IMAGE/PNG".toList, [0]⟩]

theorem capitalDocument_disagrees : ¬ forall doc, LinksAgree doc := by
  intro h
  rcases (h capitalDocument).agrees ['a'] 0 "images/image-1.png".toList List.mem_cons_self
    (by decide) with ⟨_, _, hagrees⟩
  rcases hagrees.picture with ⟨image, hfilter, _⟩
  have hempty : imagesFromDocument capitalDocument = [] := by decide
  rw [hempty] at hfilter
  cases hfilter

end Anydoc
end DocReader
end KnowledgeBrain
