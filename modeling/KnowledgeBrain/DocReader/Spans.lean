import KnowledgeBrain.DocReader.Contract
import Mathlib.Data.List.Flatten

/-!
# What the rendered spans address

The text grows at its end only, so what a unit was rendered as stays where it
was put.  The spans of all units, one after the other, address disjoint parts
of the text in order; a table of a spreadsheet selects those of its rows.
-/

namespace KnowledgeBrain
namespace DocReader

open Foundation
open Chunker (Text byteLen byteSlice takeBytes dropBytes)

/-!
# A span and the text it addresses
-/

/-- The span addresses this occurrence of the text. -/
def SpanOf (content : Text) (span : RenderedSpan) (text : Text) : Prop :=
  text ≠ [] ∧ exists before after, content = before ++ (text ++ after) ∧
    span.startByte = byteLen before ∧ span.endByte = byteLen before + byteLen text

/-- The spans follow each other. -/
def Follow (spans : List RenderedSpan) : Prop :=
  spans.Pairwise fun a b => a.endByte ≤ b.startByte

variable {span : RenderedSpan} {text : Text}

theorem SpanOf.append {content more : Text} (h : SpanOf content span text) :
    SpanOf (content ++ more) span text := by
  rcases h with ⟨hnonempty, before, after, heq, hstart, hend⟩
  refine ⟨hnonempty, before, after ++ more, ?_, hstart, hend⟩
  rw [heq]
  simp

theorem SpanOf.extend {content content' : Text} (h : SpanOf content span text)
    (hmore : content <+: content') :
    SpanOf content' span text := by
  rcases hmore with ⟨more, rfl⟩
  exact h.append

variable {content : Text}

theorem SpanOf.slice (h : SpanOf content span text) :
    byteSlice content span.startByte span.endByte = text := by
  rcases h with ⟨_, before, after, heq, hstart, hend⟩
  unfold byteSlice
  rw [heq, hstart, hend, Chunker.dropBytes_append, Nat.add_sub_cancel_left,
    Chunker.takeBytes_append]

theorem SpanOf.nonempty (h : SpanOf content span text) : span.startByte < span.endByte := by
  rcases h with ⟨hnonempty, _, _, _, hstart, hend⟩
  have hpos := Chunker.byteLen_pos hnonempty
  omega

theorem SpanOf.le (h : SpanOf content span text) : span.endByte ≤ byteLen content := by
  rcases h with ⟨_, before, after, heq, _, hend⟩
  rw [hend, heq, Chunker.byteLen_append, Chunker.byteLen_append]
  omega

/-!
# Where a text is put
-/

/-- The text with what separates it from the next part. -/
def opened (content : Text) : Text :=
  if content = [] then [] else content ++ "\n\n".toList

def extend (content text : Text) : Text :=
  if text = [] then content else opened content ++ text

def spansAt (content text : Text) : List RenderedSpan :=
  if text = [] then []
  else [⟨byteLen (opened content), byteLen (opened content) + byteLen text⟩]

theorem prefix_opened (content : Text) : content <+: opened content := by
  unfold opened
  split
  · rename_i hempty
    rw [hempty]
  · exact List.prefix_append _ _

theorem prefix_extend (content text : Text) : content <+: extend content text := by
  unfold extend
  split
  · exact List.prefix_refl _
  · exact (prefix_opened content).trans (List.prefix_append _ _)

theorem byteLen_le_of_prefix {t u : Text} (h : t <+: u) : byteLen t ≤ byteLen u := by
  rcases h with ⟨more, rfl⟩
  rw [Chunker.byteLen_append]
  exact Nat.le_add_right _ _

theorem spansAt_spanOf {content text : Text} (h : span ∈ spansAt content text) :
    SpanOf (extend content text) span text := by
  unfold spansAt at h
  split at h
  · cases h
  · rename_i hnonempty
    rw [List.mem_singleton] at h
    subst h
    refine ⟨hnonempty, opened content, [], ?_, rfl, rfl⟩
    rw [extend, if_neg hnonempty, List.append_nil]

theorem le_start_of_mem_spansAt {content text : Text} (h : span ∈ spansAt content text) :
    byteLen content ≤ span.startByte := by
  unfold spansAt at h
  split at h
  · cases h
  · rw [List.mem_singleton] at h
    subst h
    exact byteLen_le_of_prefix (prefix_opened content)

theorem spansAt_texts (content text : Text) :
    (spansAt content text).map (fun _ => text) = [text].filter (· ≠ []) := by
  unfold spansAt
  by_cases hempty : text = []
  · simp [hempty]
  · simp [hempty]

/-!
# The parts of the text
-/

/-- What the units are rendered as, in order. -/
def renderings (media : String) : List Text -> List SourceUnit -> List Text
  | _, [] => []
  | emitted, unit :: units =>
      let rendered := renderUnit media emitted unit
      rendered.1 :: renderings media rendered.2 units

structure Piece where
  unit : SourceUnit
  text : Text
  spans : List RenderedSpan

/-- The units with what they are rendered as and where it is put. -/
def pieces (media : String) : Text -> List Text -> List SourceUnit -> List Piece
  | _, _, [] => []
  | content, emitted, unit :: units =>
      let rendered := renderUnit media emitted unit
      ⟨unit, rendered.1, spansAt content rendered.1⟩ ::
        pieces media (extend content rendered.1) rendered.2 units

/-- The text after all units. -/
def whole (media : String) : Text -> List Text -> List SourceUnit -> Text
  | content, _, [] => content
  | content, emitted, unit :: units =>
      let rendered := renderUnit media emitted unit
      whole media (extend content rendered.1) rendered.2 units

theorem pieces_units (media : String) (content : Text) (emitted : List Text)
    (units : List SourceUnit) :
    (pieces media content emitted units).map (fun piece => (piece.unit, piece.text)) =
      units.zip (renderings media emitted units) := by
  induction units generalizing content emitted with
  | nil =>
      rfl
  | cons unit units ih =>
      simp only [pieces, renderings, List.map_cons, List.zip_cons_cons, ih]

theorem length_renderings (media : String) (emitted : List Text) (units : List SourceUnit) :
    (renderings media emitted units).length = units.length := by
  induction units generalizing emitted with
  | nil =>
      rfl
  | cons unit units ih =>
      rw [renderings, List.length_cons, List.length_cons, ih]

theorem map_unit_pieces (media : String) (content : Text) (emitted : List Text)
    (units : List SourceUnit) : (pieces media content emitted units).map Piece.unit = units := by
  induction units generalizing content emitted with
  | nil =>
      rfl
  | cons unit units ih =>
      simp only [pieces, List.map_cons, ih]

theorem prefix_whole (media : String) (content : Text) (emitted : List Text)
    (units : List SourceUnit) : content <+: whole media content emitted units := by
  induction units generalizing content emitted with
  | nil =>
      exact List.prefix_refl _
  | cons unit units ih =>
      exact (prefix_extend _ _).trans (ih _ _)

variable {units : List SourceUnit} {media : String} {emitted : List Text}

theorem piece_spans {piece : Piece} (h : piece ∈ pieces media content emitted units) :
    List.Forall₂ (SpanOf (whole media content emitted units)) piece.spans
      ([piece.text].filter (· ≠ [])) := by
  induction units generalizing content emitted with
  | nil =>
      cases h
  | cons unit units ih =>
      rcases List.mem_cons.mp h with rfl | hmem
      · rw [← spansAt_texts content, List.forall₂_map_right_iff, List.forall₂_same]
        intro span hspan
        exact (spansAt_spanOf hspan).extend (prefix_whole _ _ _ _)
      · exact ih hmem

theorem le_start_of_mem (h : span ∈ (pieces media content emitted units).flatMap Piece.spans) :
    byteLen content ≤ span.startByte := by
  induction units generalizing content emitted with
  | nil =>
      cases h
  | cons unit units ih =>
      rw [pieces, List.flatMap_cons, List.mem_append] at h
      rcases h with hfirst | hrest
      · exact le_start_of_mem_spansAt hfirst
      · exact Nat.le_trans ( byteLen_le_of_prefix (prefix_extend _ _)) (ih hrest)

theorem follow_pieces (media : String) (content : Text) (emitted : List Text)
    (units : List SourceUnit) :
    Follow ((pieces media content emitted units).flatMap Piece.spans) := by
  induction units generalizing content emitted with
  | nil =>
      exact List.Pairwise.nil
  | cons unit units ih =>
      rw [pieces, List.flatMap_cons]
      refine List.pairwise_append.mpr ⟨?_, ih _ _, ?_⟩
      · show List.Pairwise _ (spansAt _ _)
        unfold spansAt
        split
        · exact List.Pairwise.nil
        · exact List.pairwise_singleton _ _
      · intro first hfirst span hspan
        exact Nat.le_trans (spansAt_spanOf hfirst).le (le_start_of_mem hspan)

/-!
# The loop over the units
-/

theorem lookup_put {t : SpanTable} (k k' : String) (spans : List RenderedSpan) :
    (t.upsert k spans fun _ => spans).lookup k' = if k' = k then some spans else t.lookup k' := by
  rw [Table.lookup_upsert]
  split
  · cases t.lookup k <;> rfl
  · rfl

theorem renderStep_spec (media : String) {s : RenderState} (unit : SourceUnit)
    (hoffset : s.offset = byteLen s.content) :
    (renderStep media s unit).content = extend s.content (renderUnit media s.emitted unit).1 ∧
      (renderStep media s unit).offset = byteLen (renderStep media s unit).content ∧
      (renderStep media s unit).emitted = (renderUnit media s.emitted unit).2 ∧
      forall k, (renderStep media s unit).spans.lookup k =
        if k = unit.key then some (spansAt s.content (renderUnit media s.emitted unit).1)
        else s.spans.lookup k := by
  generalize hrendered : renderUnit media s.emitted unit = rendered
  rcases rendered with ⟨text, emitted⟩
  have hopened : (if s.content = [] then s.offset else s.offset + 2) =
      byteLen (opened s.content) := by
    unfold opened
    split
    · rename_i hempty
      rw [hoffset, hempty]
    · rw [hoffset, Chunker.byteLen_append]
      rfl
  by_cases hempty : text = []
  · have hstep : renderStep media s unit =
        { s with spans := s.spans.upsert unit.key [] fun _ => [], emitted := emitted } := by
      simp [renderStep, hrendered, hempty]
    rw [hstep]
    refine ⟨?_, hoffset, rfl, ?_⟩
    · rw [extend, if_pos hempty]
    · intro k
      rw [lookup_put, spansAt, if_pos hempty]
  · have hstep : renderStep media s unit =
        { content := opened s.content ++ text
          offset := byteLen (opened s.content) + byteLen text
          spans := (s.spans.upsert unit.key [] fun _ => []).modify unit.key
            (· ++ [⟨byteLen (opened s.content), byteLen (opened s.content) + byteLen text⟩])
          emitted := emitted } := by
      simp only [renderStep, hrendered, hempty, if_false, hopened]
      rfl
    rw [hstep]
    refine ⟨?_, ?_, rfl, ?_⟩
    · rw [extend, if_neg hempty]
    · rw [Chunker.byteLen_append]
    · intro k
      rw [Table.lookup_modify, lookup_put, spansAt, if_neg hempty]
      by_cases hk : k = unit.key
      · rw [if_pos hk, if_pos hk, if_pos hk]
        rfl
      · rw [if_neg hk, if_neg hk, if_neg hk]

/-- The loop puts every unit where the pieces say. -/
theorem renderLoop_spec (media : String) {s : RenderState}
    (hkeys : (units.map SourceUnit.key).Nodup) (hoffset : s.offset = byteLen s.content) :
    (units.foldl (renderStep media) s).content = whole media s.content s.emitted units ∧
      (forall k, k ∉ units.map SourceUnit.key ->
        (units.foldl (renderStep media) s).spans.lookup k = s.spans.lookup k) ∧
      forall piece, piece ∈ pieces media s.content s.emitted units ->
        (units.foldl (renderStep media) s).spans.lookup piece.unit.key = some piece.spans := by
  induction units generalizing s with
  | nil =>
      refine ⟨rfl, fun _ _ => rfl, ?_⟩
      intro piece hpiece
      cases hpiece
  | cons unit units ih =>
      rw [List.map_cons, List.nodup_cons] at hkeys
      rcases renderStep_spec media unit hoffset with
        ⟨hcontent, hoffset', hemitted, hlookup⟩
      rcases ih (s := renderStep media s unit) hkeys.2 hoffset' with ⟨hwhole, hother, hpieces⟩
      rw [hcontent, hemitted] at hwhole hpieces
      rw [List.foldl_cons]
      refine ⟨hwhole, ?_, ?_⟩
      · intro k hk
        rw [List.map_cons, List.mem_cons, not_or] at hk
        rw [hother k hk.2, hlookup, if_neg hk.1]
      · intro piece hpiece
        rcases List.mem_cons.mp hpiece with rfl | hrest
        · show Table.lookup _ unit.key = _
          rw [hother unit.key hkeys.1, hlookup, if_pos rfl]
        · exact hpieces piece hrest

/-!
# The rows of a table
-/

/-- What a table takes over from its rows. -/
def borrowed (units : List SourceUnit) (spans : SpanTable) (unit : SourceUnit) :
    List RenderedSpan :=
  match unit.grid, unit.locator with
  | some _, .spreadsheet target =>
      (units.filter (isRowOf target)).flatMap fun row => (spans.lookup row.key).getD []
  | _, _ => []

theorem kind_of_isRowOf {target : SpreadsheetPlace} {row : SourceUnit}
    (h : isRowOf target row = true) : row.kind = .tableRow := by
  unfold isRowOf at h
  split at h
  · simp only [Bool.and_eq_true, beq_iff_eq] at h
    exact h.1.1.1
  · cases h

/-- Other spans are not touched. -/
theorem extendAll_spec {key : String} {rows : List SourceUnit} (spans : SpanTable)
    (hkey : forall row, row ∈ rows -> row.key ≠ key) :
    (forall k, k ≠ key -> (rows.foldl (extendSpans key) spans).lookup k = spans.lookup k) ∧
      (rows.foldl (extendSpans key) spans).lookup key =
        (spans.lookup key).map (· ++ rows.flatMap fun row => (spans.lookup row.key).getD []) := by
  induction rows generalizing spans with
  | nil =>
      refine ⟨fun _ _ => rfl, ?_⟩
      simp
  | cons row rows ih =>
      have hother : forall k, k ≠ key -> (extendSpans key spans row).lookup k = spans.lookup k :=
        fun k hk => Table.lookup_modify_of_ne _ _ hk
      have hself : (extendSpans key spans row).lookup key =
          (spans.lookup key).map (· ++ (spans.lookup row.key).getD []) :=
        Table.lookup_modify_self _ _ _
      rcases ih (extendSpans key spans row)
        (fun r hr => hkey r (List.mem_cons_of_mem _ hr)) with ⟨hrest, hrestSelf⟩
      rw [List.foldl_cons]
      refine ⟨fun k hk => (hrest k hk).trans (hother k hk), ?_⟩
      have hrows : (rows.flatMap fun r => ((extendSpans key spans row).lookup r.key).getD []) =
          rows.flatMap fun r => (spans.lookup r.key).getD [] := by
        apply List.flatMap_congr
        intro r hr
        rw [hother r.key (hkey r (List.mem_cons_of_mem _ hr))]
      rw [hrestSelf, hself, hrows, Option.map_map]
      congr 1
      funext own
      simp

variable {unit : SourceUnit}

/-- One table takes over its rows; all else stays. -/
theorem borrowSpans_spec (spans : SpanTable) (hkeys : (units.map SourceUnit.key).Nodup)
    (hunit : unit ∈ units)
    (hrows : forall row, row ∈ units -> row.kind = .tableRow -> row.grid = none) :
    (forall k, k ≠ unit.key -> (borrowSpans units spans unit).lookup k = spans.lookup k) ∧
      (unit.grid = none -> borrowSpans units spans unit = spans) ∧
      (borrowSpans units spans unit).lookup unit.key =
        (spans.lookup unit.key).map (· ++ borrowed units spans unit) := by
  have hsame : spans.lookup unit.key = (spans.lookup unit.key).map (· ++ []) := by
    simp
  unfold borrowSpans borrowed
  cases hgrid : unit.grid with
  | none =>
      exact ⟨fun _ _ => rfl, fun _ => rfl, hsame⟩
  | some grid =>
      cases hlocator : unit.locator with
      | spreadsheet target =>
          have hkey : forall row, row ∈ units.filter (isRowOf target) -> row.key ≠ unit.key := by
            intro row hrow heq
            rw [List.mem_filter] at hrow
            have hrow' := List.inj_on_of_nodup_map hkeys hrow.1 hunit heq
            have hnone := hrows row hrow.1 (kind_of_isRowOf hrow.2)
            rw [hrow', hgrid] at hnone
            cases hnone
          rcases extendAll_spec spans hkey with ⟨hother, hself⟩
          refine ⟨hother, ?_, hself⟩
          intro hnone
          cases hnone
      | document place =>
          exact ⟨fun _ _ => rfl, fun _ => rfl, hsame⟩
      | image place =>
          exact ⟨fun _ _ => rfl, fun _ => rfl, hsame⟩
      | attachment partName relationshipType =>
          exact ⟨fun _ _ => rfl, fun _ => rfl, hsame⟩

/-- A row keeps its spans, and a table reads those of its rows. -/
theorem borrowLoop_spec {units todo : List SourceUnit} {spans : SpanTable}
    (hkeys : (units.map SourceUnit.key).Nodup) (htodo : todo.Sublist units)
    (hrows : forall row, row ∈ units -> row.kind = .tableRow -> row.grid = none) :
    (forall k, k ∉ todo.map SourceUnit.key ->
        (todo.foldl (borrowSpans units) spans).lookup k = spans.lookup k) ∧
      forall unit, unit ∈ todo -> (todo.foldl (borrowSpans units) spans).lookup unit.key =
        (spans.lookup unit.key).map (· ++ borrowed units spans unit) := by
  induction todo generalizing spans with
  | nil =>
      refine ⟨fun _ _ => rfl, ?_⟩
      intro unit hunit
      cases hunit
  | cons unit todo ih =>
      have hunit : unit ∈ units := htodo.subset (List.mem_cons_self ..)
      have hnodup := hkeys.sublist (htodo.map SourceUnit.key)
      rw [List.map_cons, List.nodup_cons] at hnodup
      rcases borrowSpans_spec spans hkeys hunit hrows with ⟨hother, hnone, hself⟩
      rcases @ih (borrowSpans units spans unit) ((List.sublist_cons_self _ _).trans htodo)
        with ⟨hrest, hrestUnits⟩
      have hborrowed : forall u, borrowed units (borrowSpans units spans unit) u =
          borrowed units spans u := by
        intro u
        unfold borrowed
        split
        · apply List.flatMap_congr
          intro row hrow
          rw [List.mem_filter] at hrow
          by_cases hkey : row.key = unit.key
          · have hsame := List.inj_on_of_nodup_map hkeys hrow.1 hunit hkey
            have hgrid := hrows row hrow.1 (kind_of_isRowOf hrow.2)
            rw [hsame] at hgrid
            rw [hnone hgrid]
          · rw [hother row.key hkey]
        · rfl
      rw [List.foldl_cons]
      refine ⟨?_, ?_⟩
      · intro k hk
        rw [List.map_cons, List.mem_cons, not_or] at hk
        rw [hrest k hk.2, hother k hk.1]
      · intro u hu
        rcases List.mem_cons.mp hu with rfl | hmem
        · rw [hrest u.key hnodup.1, hself]
        · have hne : u.key ≠ unit.key := by
            intro heq
            apply hnodup.1
            rw [← heq]
            exact List.mem_map_of_mem hmem
          rw [hrestUnits u hmem, hother u.key hne, hborrowed]

/-!
# All spans
-/

/-- The texts of the rows of a region, as far as they show. -/
def rowTexts (media : String) (units : List SourceUnit) (target : SpreadsheetPlace) : List Text :=
  (((units.zip (renderings media [] units)).filter fun row => isRowOf target row.1).map
    Prod.snd).filter (· ≠ [])

/-- What the spans of a unit have to show: its own text, or for the table of a spreadsheet
those of its rows. -/
def shownTexts (media : String) (units : List SourceUnit) (unit : SourceUnit) (text : Text) :
    List Text :=
  match isSheetMedia media, unit.grid, unit.locator with
  | true, some _, .spreadsheet target => rowTexts media units target
  | _, _, _ => [text].filter (· ≠ [])

def spansOf (spans : SpanTable) (unit : SourceUnit) : List RenderedSpan :=
  (spans.lookup unit.key).getD []

theorem spans_of_pieces {selected : List Piece} (h : forall piece, piece ∈ selected ->
      List.Forall₂ (SpanOf content) piece.spans ([piece.text].filter (· ≠ []))) :
    List.Forall₂ (SpanOf content) (selected.flatMap Piece.spans)
      ((selected.map Piece.text).filter (· ≠ [])) := by
  induction selected with
  | nil =>
      exact List.Forall₂.nil
  | cons piece selected ih =>
      rw [List.flatMap_cons, List.map_cons, ← List.singleton_append, List.filter_append]
      exact List.rel_append (h piece (List.mem_cons_self ..))
        (ih fun p hp => h p (List.mem_cons_of_mem _ hp))

theorem follow_of_selected {selected all : List Piece} (h : selected.Sublist all)
    (hfollow : Follow (all.flatMap Piece.spans)) : Follow (selected.flatMap Piece.spans) :=
  hfollow.sublist (h.flatMap _)

theorem renderUnit_table {target : SpreadsheetPlace} (hmedia : isSheetMedia media = true)
    (hlocator : unit.locator = .spreadsheet target) (hkind : unit.kind ≠ .tableRow) :
    (renderUnit media emitted unit).1 = [] := by
  unfold renderUnit
  rw [if_pos ⟨hmedia, by rw [hlocator]; rfl⟩, if_neg hkind]

theorem piece_text {piece : Piece} (h : piece ∈ pieces media content emitted units) :
    exists seen, piece.text = (renderUnit media seen piece.unit).1 := by
  induction units generalizing content emitted with
  | nil =>
      cases h
  | cons unit units ih =>
      rcases List.mem_cons.mp h with rfl | hmem
      · exact ⟨emitted, rfl⟩
      · exact ih hmem

/-- The spans of every unit follow each other and address exactly what the unit shows. -/
theorem renderUnits_spans (hkeys : (units.map SourceUnit.key).Nodup)
    (hrows : forall row, row ∈ units -> row.kind = .tableRow -> row.grid = none)
    (hmem : (unit, text) ∈ units.zip (renderings media [] units)) :
    Follow (spansOf (renderUnits units media).2 unit) ∧
      List.Forall₂ (SpanOf (renderUnits units media).1) (spansOf (renderUnits units media).2 unit)
        (shownTexts media units unit text) := by
  rcases renderLoop_spec media (s := ⟨[], 0, Table.empty, []⟩) hkeys rfl with
    ⟨hcontent, _, hlookup⟩
  have hfollow := follow_pieces media [] [] units
  generalize hall : pieces media [] [] units = all at hlookup hfollow
  have hzip : all.map (fun piece => (piece.unit, piece.text)) =
      units.zip (renderings media [] units) := by
    rw [← hall]
    exact pieces_units media [] [] units
  have hspans : forall piece, piece ∈ all ->
      List.Forall₂ (SpanOf (whole media [] [] units)) piece.spans
        ([piece.text].filter (· ≠ [])) := by
    intro piece hpiece
    rw [← hall] at hpiece
    exact piece_spans hpiece
  rw [← hzip] at hmem
  rcases List.mem_map.mp hmem with ⟨piece, hpiece, heq⟩
  cases heq
  have hunit : piece.unit ∈ units := by
    rw [← map_unit_pieces media [] [] units, hall]
    exact List.mem_map_of_mem hpiece
  have hown : Follow piece.spans := by
    have hselected := follow_of_selected (List.singleton_sublist.mpr hpiece) hfollow
    rwa [List.flatMap_singleton] at hselected
  generalize hloop : units.foldl (renderStep media) ⟨[], 0, Table.empty, []⟩ = s at hcontent hlookup
  by_cases hmedia : isSheetMedia media = true
  · have hresult : renderUnits units media =
        (s.content, units.foldl (borrowSpans units) s.spans) := by
      simp only [renderUnits, hloop, hmedia, if_true]
    rw [hresult, hcontent]
    have hborrow := (@borrowLoop_spec units units s.spans hkeys (List.Sublist.refl _) hrows).2
      piece.unit hunit
    have hspansOf : spansOf (units.foldl (borrowSpans units) s.spans) piece.unit =
        piece.spans ++ borrowed units s.spans piece.unit := by
      rw [spansOf, hborrow, hlookup piece hpiece]
      rfl
    rw [hspansOf]
    unfold shownTexts borrowed
    rw [hmedia]
    cases hgrid : piece.unit.grid with
    | none =>
        rw [List.append_nil]
        exact ⟨hown, hspans piece hpiece⟩
    | some grid =>
        cases hlocator : piece.unit.locator with
        | spreadsheet target =>
            have hkind : piece.unit.kind ≠ .tableRow := by
              intro hkind
              have hnone := hrows piece.unit hunit hkind
              rw [hgrid] at hnone
              cases hnone
            have htext : piece.text = [] := by
              rw [← hall] at hpiece
              rcases piece_text hpiece with ⟨seen, hseen⟩
              rw [hseen]
              exact renderUnit_table hmedia hlocator hkind
            have hempty : piece.spans = [] := by
              have hshown := hspans piece hpiece
              rw [htext] at hshown
              exact List.forall₂_nil_right_iff.mp hshown
            have hselected : ((units.filter (isRowOf target)).flatMap fun row =>
                (s.spans.lookup row.key).getD []) =
                (all.filter fun piece => isRowOf target piece.unit).flatMap Piece.spans := by
              have hunits : units = all.map Piece.unit := by
                rw [← hall, map_unit_pieces]
              rw [hunits, List.filter_map, List.flatMap_map]
              apply List.flatMap_congr
              intro row hrow
              rw [hlookup row (List.mem_of_mem_filter hrow)]
              rfl
            have htexts : rowTexts media units target =
                ((all.filter fun piece => isRowOf target piece.unit).map Piece.text).filter
                  (· ≠ []) := by
              rw [rowTexts, ← hzip]
              congr 1
              rw [List.filter_map, List.map_map]
              rfl
            dsimp only
            rw [hempty, List.nil_append, hselected, htexts]
            refine ⟨follow_of_selected List.filter_sublist hfollow, spans_of_pieces ?_⟩
            intro row hrow
            exact hspans row (List.mem_of_mem_filter hrow)
        | document place =>
            rw [List.append_nil]
            exact ⟨hown, hspans piece hpiece⟩
        | image place =>
            rw [List.append_nil]
            exact ⟨hown, hspans piece hpiece⟩
        | attachment partName relationshipType =>
            rw [List.append_nil]
            exact ⟨hown, hspans piece hpiece⟩
  · have hmedia' : isSheetMedia media = false := by
      simpa using hmedia
    have hresult : renderUnits units media = (s.content, s.spans) := by
      simp only [renderUnits, hloop, hmedia', Bool.false_eq_true, if_false]
    have hspansOf : spansOf s.spans piece.unit = piece.spans := by
      rw [spansOf, hlookup piece hpiece]
      rfl
    rw [hresult, hcontent, hspansOf]
    unfold shownTexts
    rw [hmedia']
    exact ⟨hown, hspans piece hpiece⟩

end DocReader
end KnowledgeBrain
