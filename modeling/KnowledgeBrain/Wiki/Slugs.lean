import KnowledgeBrain.Chunker.Splitter
import KnowledgeBrain.Foundation.Keyed
import Mathlib.Data.List.Forall2

/-!
# Wiki candidates

A model lists the entities and concepts of a document.  Every item becomes a
candidate with a title and a slug, cites the chunks that mention it, and joins
the candidate before it that has the same normalised title.
-/

namespace KnowledgeBrain
namespace Wiki

open Foundation
open Chunker (Text trim byteLen contains isWhitespace literalMatches)

/-- `str::to_lowercase`, by the Unicode tables of the standard library. -/
structure Unicode where
  toLowercase : Text -> Text

structure ExtractedItem where
  name : Text
  slug : Text
  aliases : List Text
  description : Text
  details : Text
  pageType : Text
deriving DecidableEq

structure CombinedExtraction where
  entities : List ExtractedItem
  concepts : List ExtractedItem

structure Candidate where
  title : Text
  slug : Text
  pageType : Text
  aliases : List Text
  about : Text
  details : Text
  sourceRefs : List Nat
deriving DecidableEq

structure GraphNode where
  name : Text

/-- What citations read of a chunk. -/
structure CitedChunk where
  id : Nat
  chunkType : String
  content : Text

def pageEntity : Text := "entity".toList

def pageConcept : Text := "concept".toList

def allPageTypes : List Text :=
  ["summary", "entity", "concept", "index", "log", "synthesis", "comparison"].map String.toList

/-!
# Slugs
-/

/-- `str::trim_matches`. -/
def trimMatches (c : Char) (t : Text) : Text :=
  ((t.dropWhile (· == c)).reverse.dropWhile (· == c)).reverse

def slugChar (c : Char) : Char :=
  if c.isAlphanum then c.toLower else '-'

def typedSlug (pageType title : Text) : Text :=
  let base := trimMatches '-' (title.map slugChar)
  let base := if base.isEmpty then "page".toList else base
  pageType ++ '/' :: base

def isHexDigit (c : Char) : Bool :=
  c.isDigit || ('a' ≤ c && c ≤ 'f') || ('A' ≤ c && c ≤ 'F')

def toAsciiLowercase (t : Text) : Text :=
  t.map Char.toLower

/-- Figure numbers, hashes and lone numbers are no items. -/
def junkItemName (name : Text) : Bool :=
  let t := trim name
  let lower := toAsciiLowercase t
  t.isEmpty || t.all Char.isDigit || (decide (16 ≤ byteLen t) && t.all isHexDigit) ||
    (lower.head? == some '图' && t.any Char.isDigit && decide (t.length ≤ 8)) ||
    ["tcp", "udp", "http", "https", "ipv4", "ipv6"].any fun s => s.toList == lower

/-!
# Extraction
-/

/-- From the first opening brace to the last closing one. -/
def extractJsonObject (raw : Text) : Option Text :=
  match raw.findIdx? (· == '\x7b'), raw.reverse.findIdx? (· == '\x7d') with
  | some start, some behind =>
      let stop := raw.length - 1 - behind
      if stop ≤ start then none else some (slice raw start (stop + 1))
  | _, _ => none

/-- The answer as the JSON library reads it, or nothing. -/
def extractionOf (fromStr : Text -> Option CombinedExtraction) (raw : Text) :
    CombinedExtraction :=
  let trimmed := trim raw
  (fromStr ((extractJsonObject trimmed).getD trimmed)).getD ⟨[], []⟩

/-- An item with a name that is no junk, with its type and slug filled in. -/
def keepItem (defaultType : Text) (e : ExtractedItem) : Option ExtractedItem :=
  if e.name.isEmpty then none
  else
    let pageType := if e.pageType.isEmpty then defaultType else e.pageType
    let slug := if e.slug.isEmpty then typedSlug pageType e.name else e.slug
    if junkItemName e.name then none
    else some { e with pageType := pageType, slug := slug }

def parseExtraction (fromStr : Text -> Option CombinedExtraction) (raw : Text) :
    List ExtractedItem :=
  let parsed := extractionOf fromStr raw
  parsed.entities.filterMap (keepItem pageEntity) ++
    parsed.concepts.filterMap (keepItem pageConcept)

def candidateOf (it : ExtractedItem) : Candidate :=
  let pageType := if allPageTypes.contains it.pageType then it.pageType else pageEntity
  { title := it.name
    slug :=
      if it.slug.isEmpty then typedSlug pageType it.name
      else if it.slug.contains '/' then it.slug
      else pageType ++ '/' :: it.slug
    pageType := pageType
    aliases := it.aliases
    about := it.description
    details := it.details
    sourceRefs := [] }

def candidatesFromGraph (nodes : List GraphNode) : List Candidate :=
  (nodes.filter fun n => !(trim n.name).isEmpty).map fun n =>
    { title := n.name
      slug := typedSlug pageEntity n.name
      pageType := pageEntity
      aliases := []
      about := n.name
      details := []
      sourceRefs := [] }

/-!
# Citations
-/

def coverLikeText (s : Text) : Bool :=
  let head := s.take 480
  (contains head "版权声明".toList || contains head "Copyright".toList) &&
    (contains head "完全公开".toList || contains head "邮编".toList || contains head "地址".toList)

structure ScoredChunk where
  hits : Nat
  cover : Bool
  id : Nat
deriving DecidableEq

/-- More hits first, and covers last among those with as many. -/
def scoredBefore (a b : ScoredChunk) : Bool :=
  decide (b.hits < a.hits) || (a.hits == b.hits && (!a.cover || b.cover))

def citeSnippetsMax : Nat := 3

/-- The chunks that mention a name or an alias most often. -/
def citeChunks (chunks : List CitedChunk) (name : Text) (aliases : List Text) : List Nat :=
  let needles := (name :: aliases).filter fun n => !(trim n).isEmpty
  if needles.isEmpty then []
  else
    let scored := chunks.filterMap fun ch =>
      if ch.chunkType ≠ "text" then none
      else
        let lower := toAsciiLowercase ch.content
        let hits := (needles.map fun n =>
          (literalMatches (toAsciiLowercase n) 0 0 lower).length).sum
        if hits = 0 then none else some ⟨hits, coverLikeText ch.content, ch.id⟩
    let scored := scored.mergeSort scoredBefore
    let preferred := ((scored.filter fun s => !s.cover).take citeSnippetsMax).map ScoredChunk.id
    if preferred.isEmpty then (scored.take citeSnippetsMax).map ScoredChunk.id else preferred

def dropCoverRefs (chunks : List CitedChunk) (refs : List Nat) : List Nat :=
  let kept := refs.filter fun id =>
    (chunks.find? fun c => c.id == id).all fun c => !coverLikeText c.content
  if kept.isEmpty then refs else kept

/-- Add the entries that are not there yet. -/
def extendNew {A : Type} [DecidableEq A] (items more : List A) : List A :=
  more.foldl (fun items a => if a ∈ items then items else items ++ [a]) items

/-- `iter_mut().find`: change the first entry. -/
def modifyFirst {A : Type} (p : A -> Bool) (f : A -> A) : List A -> List A
  | [] => []
  | a :: rest => if p a then f a :: rest else a :: modifyFirst p f rest

/-- The chunks an item cites: those the model names, else those that mention it. -/
def citeItem (citations : List (Text × List Nat)) (chunks : List CitedChunk) (it : Candidate) :
    Candidate :=
  let refs := (citations.lookup it.slug).getD it.sourceRefs
  let refs := if refs.isEmpty then citeChunks chunks it.title it.aliases else refs
  { it with sourceRefs := dropCoverRefs chunks refs }

/-- An item that the citation pass adds, unless its slug exists already. -/
def attachNew (existing : List Text) (chunks : List CitedChunk) (items : List Candidate)
    (n : Candidate) : List Candidate :=
  if n.slug ∈ existing then
    modifyFirst (fun c => c.slug == n.slug)
      (fun c => { c with sourceRefs := extendNew c.sourceRefs n.sourceRefs }) items
  else
    let refs :=
      if n.sourceRefs.isEmpty then citeChunks chunks n.title n.aliases else n.sourceRefs
    items ++ [{ n with sourceRefs := dropCoverRefs chunks refs }]

def attachCitations (items : List Candidate) (citations : List (Text × List Nat))
    (news : List Candidate) (chunks : List CitedChunk) : List Candidate :=
  news.foldl (attachNew (items.map Candidate.slug) chunks) (items.map (citeItem citations chunks))

/-- The candidates before citations: the items, or the nodes of the graph. -/
def baseCandidates (fromStr : Text -> Option CombinedExtraction) (raw : Text)
    (nodes : List GraphNode) : List Candidate :=
  let items := parseExtraction fromStr raw
  if items.isEmpty then candidatesFromGraph nodes else items.map candidateOf

/-- `extract_candidates`; `citeWithLlm` is the citation pass of the model. -/
def extractCandidates (fromStr : Text -> Option CombinedExtraction)
    (citeWithLlm : List Candidate -> List (Text × List Nat) × List Candidate) (raw : Text)
    (nodes : List GraphNode) (chunks : List CitedChunk) : List Candidate :=
  let candidates := baseCandidates fromStr raw nodes
  let (citations, news) := citeWithLlm candidates
  attachCitations candidates citations news chunks

/-!
# Duplicates
-/

def normItemName (u : Unicode) (s : Text) : Text :=
  u.toLowercase (s.filter fun c =>
    !isWhitespace c && c != '（' && c != '）' && c != '(' && c != ')')

/-- A duplicate adds what the candidate lacks. -/
def absorb (it ex : Candidate) : Candidate :=
  { ex with
    aliases := extendNew ex.aliases it.aliases
    sourceRefs := extendNew ex.sourceRefs it.sourceRefs
    about := if byteLen ex.about < byteLen it.about then it.about else ex.about
    details := if byteLen ex.details < byteLen it.details then it.details else ex.details }

def dedupStep (u : Unicode) (out : List Candidate) (it : Candidate) : List Candidate :=
  if out.any fun e => normItemName u e.title == normItemName u it.title then
    modifyFirst (fun e => normItemName u e.title == normItemName u it.title) (absorb it) out
  else out ++ [it]

def dedupCandidates (u : Unicode) (items : List Candidate) : List Candidate :=
  items.foldl (dedupStep u) []

/-!
# Slugs of different items

Items are told apart by their normalised names, pages by their slugs.  A slug
keeps the ASCII letters and digits of a name and the number of the characters
between them, and nothing else.
-/

/-!
## Names with one slug
-/

/-- One letter or digit, up to case, or two characters that are neither. -/
def Alike (a b : Char) : Prop :=
  (a.isAlphanum = true ∧ b.isAlphanum = true ∧ a.toLower = b.toLower) ∨
    (a.isAlphanum = false ∧ b.isAlphanum = false)

/-- From the first ASCII letter or digit to the last. -/
def core (name : Text) : Text :=
  ((name.dropWhile fun c => !c.isAlphanum).reverse.dropWhile fun c => !c.isAlphanum).reverse

/-- What of a name its slug can show. -/
def shown (name : Text) : Text :=
  if (core name).isEmpty then "page".toList else core name

/-- The names differ in no letter or digit that a slug shows, and in none of
the places between them. -/
def SameShown (a b : Text) : Prop :=
  List.Forall₂ Alike (shown a) (shown b)

theorem toLower_ne_hyphen {c : Char} (halnum : c.isAlphanum = true) : c.toLower ≠ '-' := by
  intro heq
  have hval := congrArg (fun d : Char => d.val.toNat) heq
  have hupper : c.val ≥ 'A'.val ∧ c.val ≤ 'Z'.val -> c.toLower.val = c.val + 32 :=
    fun h => congrArg Char.val (dif_pos h)
  have hother : ¬ (c.val ≥ 'A'.val ∧ c.val ≤ 'Z'.val) -> c.toLower = c := fun h => dif_neg h
  have hletters : ((decide (c.val ≥ 'A'.val ∧ c.val ≤ 'Z'.val) ||
      decide (c.val ≥ 'a'.val) && decide (c.val ≤ 'z'.val)) ||
      decide (c.val ≥ '0'.val) && decide (c.val ≤ '9'.val)) = true := halnum
  simp only [Bool.or_eq_true, Bool.and_eq_true, decide_eq_true_eq, ge_iff_le,
    UInt32.le_iff_toNat_le] at hletters hupper hother
  by_cases h : 'A'.val.toNat ≤ c.val.toNat ∧ c.val.toNat ≤ 'Z'.val.toNat
  · rw [hupper h, UInt32.toNat_add] at hval
    simp at hval h
    omega
  · rw [hother h] at hval
    simp at hval hletters
    omega

theorem slugChar_eq_hyphen (c : Char) : (slugChar c == '-') = !c.isAlphanum := by
  unfold slugChar
  cases halnum : c.isAlphanum with
  | true =>
      simpa using toLower_ne_hyphen halnum
  | false =>
      rfl

theorem slugChar_eq_iff (a b : Char) : slugChar a = slugChar b <-> Alike a b := by
  unfold slugChar Alike
  cases ha : a.isAlphanum with
  | true =>
      cases hb : b.isAlphanum with
      | true =>
          simp
      | false =>
          simpa using toLower_ne_hyphen ha
  | false =>
      cases hb : b.isAlphanum with
      | true =>
          simpa [eq_comm] using toLower_ne_hyphen hb
      | false =>
          simp

theorem trimMatches_slugChar (name : Text) :
    trimMatches '-' (name.map slugChar) = (core name).map slugChar := by
  have hhyphen : ((fun c => c == '-') ∘ slugChar) = fun c => !c.isAlphanum := by
    funext c
    exact slugChar_eq_hyphen c
  unfold trimMatches core
  rw [List.dropWhile_map, ← List.map_reverse, List.dropWhile_map, ← List.map_reverse, hhyphen]

theorem typedSlug_eq (pageType name : Text) :
    typedSlug pageType name = pageType ++ '/' :: (shown name).map slugChar := by
  unfold typedSlug shown
  rw [trimMatches_slugChar]
  cases hcore : core name with
  | nil =>
      rfl
  | cons c rest =>
      rfl

theorem typedSlug_eq_iff (pageType a b : Text) :
    typedSlug pageType a = typedSlug pageType b <-> SameShown a b := by
  rw [typedSlug_eq, typedSlug_eq, List.append_right_inj, List.cons_inj_right,
    ← List.forall₂_eq_eq_eq, List.forall₂_map_left_iff, List.forall₂_map_right_iff]
  unfold SameShown
  simp only [slugChar_eq_iff]

/-!
## Titles and slugs

Citations and duplicates change neither the title nor the slug of a candidate.
-/

/-- What an item is told apart by, and its page. -/
def Candidate.page (c : Candidate) : Text × Text :=
  (c.title, c.slug)

theorem pages_modifyFirst (f : Candidate -> Candidate) (hsame : forall c, (f c).page = c.page)
    (p : Candidate -> Bool) (items : List Candidate) :
    (modifyFirst p f items).map Candidate.page = items.map Candidate.page := by
  induction items with
  | nil =>
      rfl
  | cons a rest ih =>
      unfold modifyFirst
      split
      · rw [List.map_cons, List.map_cons, hsame a]
      · rw [List.map_cons, List.map_cons, ih]

/-- The items of the citation pass whose slug no candidate has. -/
def unheardOf (base news : List Candidate) : List Candidate :=
  news.filter fun n => decide (n.slug ∉ base.map Candidate.slug)

theorem pages_attachNew (existing : List Text) (chunks : List CitedChunk)
    (items news : List Candidate) :
    (news.foldl (attachNew existing chunks) items).map Candidate.page =
      items.map Candidate.page ++
        (news.filter fun n => decide (n.slug ∉ existing)).map Candidate.page := by
  induction news generalizing items with
  | nil =>
      simp
  | cons n rest ih =>
      rw [List.foldl_cons, ih]
      unfold attachNew
      by_cases hmem : n.slug ∈ existing
      · have hkept := pages_modifyFirst
          (fun c => { c with sourceRefs := extendNew c.sourceRefs n.sourceRefs })
          (fun _ => rfl) (fun c => c.slug == n.slug) items
        rw [if_pos hmem, hkept, List.filter_cons_of_neg (by simpa using hmem)]
      · rw [if_neg hmem, List.filter_cons_of_pos (by simpa using hmem), List.map_append,
          List.map_cons, List.append_assoc]
        rfl

theorem pages_attachCitations (items : List Candidate) (citations : List (Text × List Nat))
    (news : List Candidate) (chunks : List CitedChunk) :
    (attachCitations items citations news chunks).map Candidate.page =
      items.map Candidate.page ++ (unheardOf items news).map Candidate.page := by
  have hcite : (items.map (citeItem citations chunks)).map Candidate.page =
      items.map Candidate.page := by
    rw [List.map_map]
    rfl
  unfold attachCitations
  rw [pages_attachNew, hcite]
  rfl

/-- Of the items with one normalised title the first stays. -/
theorem pages_dedupCandidates (u : Unicode) (items : List Candidate) :
    (dedupCandidates u items).map Candidate.page =
      firstBy (normItemName u ∘ Prod.fst) (items.map Candidate.page) := by
  induction items using List.reverseRecOn with
  | nil =>
      rfl
  | append_singleton items it ih =>
      have hkeys : (normItemName u ∘ Prod.fst) it.page ∈
            (items.map Candidate.page).map (normItemName u ∘ Prod.fst) <->
          ((dedupCandidates u items).any fun e =>
            normItemName u e.title == normItemName u it.title) = true := by
        rw [← key_mem_firstBy, ← ih, List.map_map, List.mem_map, List.any_eq_true]
        simp [Candidate.page]
      have hstep : dedupCandidates u (items ++ [it]) =
          dedupStep u (dedupCandidates u items) it := by
        unfold dedupCandidates
        rw [List.foldl_append]
        rfl
      rw [hstep, List.map_append, List.map_singleton, firstBy_concat, ← ih]
      unfold dedupStep
      by_cases hknown : ((dedupCandidates u items).any fun e =>
          normItemName u e.title == normItemName u it.title) = true
      · have hmem := hkeys.mpr hknown
        rw [if_pos hknown, if_pos hmem, List.append_nil]
        exact pages_modifyFirst (absorb it) (fun _ => rfl) _ _
      · have hmem := mt hkeys.mp hknown
        rw [if_neg hknown, if_neg hmem, List.map_append]
        rfl

/-!
## Slugs of extracted items
-/

theorem keepItem_slug {defaultType : Text} {e it : ExtractedItem} (hslug : e.slug = [])
    (hkeep : keepItem defaultType e = some it) : it.slug = typedSlug it.pageType it.name := by
  unfold keepItem at hkeep
  rw [hslug] at hkeep
  split at hkeep
  · cases hkeep
  · simp only at hkeep
    split at hkeep
    · cases hkeep
    · cases hkeep
      rfl

theorem candidateOf_page {it : ExtractedItem} (hslug : it.slug = typedSlug it.pageType it.name) :
    (candidateOf it).page = (it.name, typedSlug it.pageType it.name) := by
  have hsome : it.slug.isEmpty = false := by
    rw [hslug, typedSlug_eq]
    simp
  have hslash : it.slug.contains '/' = true := by
    rw [hslug, typedSlug_eq]
    simp
  unfold candidateOf Candidate.page
  rw [hsome, hslash]
  simp [hslug]

def CombinedExtraction.items (extraction : CombinedExtraction) : List ExtractedItem :=
  extraction.entities ++ extraction.concepts

theorem parseExtraction_slug {fromStr : Text -> Option CombinedExtraction} {raw : Text}
    (hslug : forall e, e ∈ (extractionOf fromStr raw).items -> e.slug = [])
    {it : ExtractedItem} (hmem : it ∈ parseExtraction fromStr raw) :
    it.slug = typedSlug it.pageType it.name := by
  unfold parseExtraction at hmem
  rcases List.mem_append.mp hmem with hentity | hconcept
  · rcases List.mem_filterMap.mp hentity with ⟨e, he, hkeep⟩
    exact keepItem_slug (hslug e (List.mem_append_left _ he)) hkeep
  · rcases List.mem_filterMap.mp hconcept with ⟨e, he, hkeep⟩
    exact keepItem_slug (hslug e (List.mem_append_right _ he)) hkeep

theorem baseCandidates_page {fromStr : Text -> Option CombinedExtraction} {raw pageType : Text}
    (nodes : List GraphNode)
    (hslug : forall e, e ∈ (extractionOf fromStr raw).items -> e.slug = [])
    (htype : forall it, it ∈ parseExtraction fromStr raw -> it.pageType = pageType) :
    exists shared, forall c, c ∈ baseCandidates fromStr raw nodes ->
      c.slug = typedSlug shared c.title := by
  unfold baseCandidates
  by_cases hnone : (parseExtraction fromStr raw).isEmpty = true
  · exists pageEntity
    intro c hmem
    rw [if_pos hnone] at hmem
    rcases List.mem_map.mp hmem with ⟨n, _, rfl⟩
    rfl
  · exists pageType
    intro c hmem
    rw [if_neg hnone] at hmem
    rcases List.mem_map.mp hmem with ⟨it, hit, rfl⟩
    have hpage := candidateOf_page (parseExtraction_slug hslug hit)
    rw [htype it hit] at hpage
    exact congrArg Prod.snd hpage

/-- The items that the citation pass adds as candidates of their own. -/
def addedItems (u : Unicode) (base news : List Candidate) : List Candidate :=
  (firstBy (fun n => normItemName u n.title) (unheardOf base news)).filter fun n =>
    decide (normItemName u n.title ∉ base.map fun c => normItemName u c.title)

/-- The updates of one page: `grouped.entry(slug).or_default().push(update)`. -/
def grouped (candidates : List Candidate) (slug : Text) : List Candidate :=
  candidates.filter fun c => decide (c.slug = slug)

/-- No page takes two items. -/
def DistinctPages (candidates : List Candidate) : Prop :=
  (candidates.map Candidate.slug).Nodup ∧ forall slug, (grouped candidates slug).length ≤ 1

theorem distinctPages_iff (candidates : List Candidate) :
    DistinctPages candidates <-> (candidates.map Candidate.slug).Nodup := by
  constructor
  · exact fun h => h.1
  · intro hnodup
    constructor
    · exact hnodup
    · intro slug
      unfold grouped
      rw [filter_key_eq hnodup slug]
      cases findBy Candidate.slug candidates slug with
      | none =>
          exact Nat.zero_le 1
      | some c =>
          exact Nat.le_refl 1

theorem slugs_dedupCandidates (u : Unicode) (items news : List Candidate)
    (citations : List (Text × List Nat)) (chunks : List CitedChunk) :
    (dedupCandidates u (attachCitations items citations news chunks)).map Candidate.slug =
      (firstBy (fun c => normItemName u c.title) items).map Candidate.slug ++
        (addedItems u items news).map Candidate.slug := by
  have hslug : forall cs : List Candidate,
      cs.map Candidate.slug = (cs.map Candidate.page).map Prod.snd := by
    intro cs
    rw [List.map_map]
    rfl
  rw [hslug, pages_dedupCandidates, pages_attachCitations, firstBy_append, firstBy_map, firstBy_map,
    List.map_append, List.filter_map, List.map_map, List.map_map]
  congr 2
  unfold addedItems
  apply List.filter_congr
  intro n _
  rw [List.map_map]
  exact decide_eq_decide.mpr Iff.rfl

theorem mem_unheardOf {u : Unicode} {base news : List Candidate} {n : Candidate}
    (hmem : n ∈ addedItems u base news) : n.slug ∉ base.map Candidate.slug := by
  have hunheard := (firstBy_sublist _ _).subset (List.mem_filter.mp hmem).1
  exact of_decide_eq_true (List.mem_filter.mp hunheard).2

/-- Items whose slugs come from their names get pages of their own if and only if no
two names that stay after normalisation show the same, and the citation pass adds
no two items with one slug. -/
theorem candidates_distinctPages_iff (u : Unicode) (fromStr : Text -> Option CombinedExtraction)
    (citeWithLlm : List Candidate -> List (Text × List Nat) × List Candidate) (raw : Text)
    (nodes : List GraphNode) (chunks : List CitedChunk) (pageType : Text)
    (hslug : forall e, e ∈ (extractionOf fromStr raw).items -> e.slug = [])
    (htype : forall it, it ∈ parseExtraction fromStr raw -> it.pageType = pageType) :
    DistinctPages (dedupCandidates u (extractCandidates fromStr citeWithLlm raw nodes chunks)) <->
      (firstBy (normItemName u) ((baseCandidates fromStr raw nodes).map Candidate.title)).Pairwise
          (fun a b => ¬ SameShown a b) ∧
        ((addedItems u (baseCandidates fromStr raw nodes)
          (citeWithLlm (baseCandidates fromStr raw nodes)).2).map Candidate.slug).Nodup := by
  rcases baseCandidates_page nodes hslug htype with ⟨shared, hshared⟩
  unfold extractCandidates
  generalize baseCandidates fromStr raw nodes = base at hshared ⊢
  rw [distinctPages_iff, slugs_dedupCandidates, firstBy_map, List.nodup_append]
  have hstay : (firstBy (fun c => normItemName u c.title) base).map Candidate.slug =
      (firstBy (normItemName u ∘ Candidate.title) base).map
        (typedSlug shared ∘ Candidate.title) := by
    apply List.map_congr_left
    intro c hmem
    exact hshared c ((firstBy_sublist _ _).subset hmem)
  have hshown : ((firstBy (fun c => normItemName u c.title) base).map Candidate.slug).Nodup <->
      ((firstBy (normItemName u ∘ Candidate.title) base).map Candidate.title).Pairwise
        fun a b => ¬ SameShown a b := by
    rw [hstay, List.Nodup, List.pairwise_map, List.pairwise_map]
    simp only [Function.comp, ← typedSlug_eq_iff shared, ne_eq]
  constructor
  · rintro ⟨hbase, hadded, _⟩
    exact ⟨hshown.mp hbase, hadded⟩
  · rintro ⟨hbase, hadded⟩
    refine ⟨hshown.mpr hbase, hadded, ?_⟩
    intro slug hkept slug' hnew heq
    rcases List.mem_map.mp hnew with ⟨n, hn, rfl⟩
    apply mem_unheardOf hn
    rw [← heq]
    exact ((firstBy_sublist _ _).map Candidate.slug).subset hkept

/-!
## Two runs
-/

/-- An answer with these names, and neither types nor slugs. -/
def answerOf (names : List Text) : CombinedExtraction :=
  ⟨names.map fun name => ⟨name, [], [], [], [], []⟩, []⟩

theorem candidates_distinctPages_ascii :
    DistinctPages (dedupCandidates ⟨toAsciiLowercase⟩
      (extractCandidates (fun _ => some (answerOf ["Alpha".toList, "alpha".toList, "Beta".toList]))
        (fun _ => ([], [])) [] [] [])) := by
  apply (candidates_distinctPages_iff _ _ _ _ _ _ pageEntity (by decide) (by decide)).mpr
  constructor
  · simp only [← typedSlug_eq_iff pageEntity]
    decide
  · decide

/-- Names in Chinese show nothing: they share the page of a name without letters. -/
theorem chinese_names_share_page :
    let names := ["防火墙".toList, "交换机".toList]
    let fromStr := fun _ => some (answerOf names)
    let u : Unicode := ⟨toAsciiLowercase⟩
    (forall e, e ∈ (extractionOf fromStr []).items -> e.slug = []) ∧
      (parseExtraction fromStr []).map ExtractedItem.name = names ∧
      (forall it, it ∈ parseExtraction fromStr [] -> it.pageType = pageEntity) ∧
      (names.map (normItemName u)).Nodup ∧
      (dedupCandidates u (extractCandidates fromStr (fun _ => ([], [])) [] [] [])).map
        Candidate.slug = ["entity/page".toList, "entity/page".toList] ∧
      ¬ DistinctPages
        (dedupCandidates u (extractCandidates fromStr (fun _ => ([], [])) [] [] [])) := by
  simp only [distinctPages_iff]
  decide

end Wiki
end KnowledgeBrain
