/-
The tokens of a text divide it without a gap.

* **`Segments`** — pieces are cut off a text one after the other, and a text is left;
* **`exists_segments`**, **`scanFrom_of_segments`** — a scan finds segments and nothing else;
* **`place`** — the tokens of segments: every segment starts where the one before it ends;
* **`map_slice_placeAll`** — so the text between two neighbouring tokens is the segment of
  the first;
* **`tokenize_segmented`** — the tokens of a text start at growing character boundaries,
  their slices make up the text, each slice is the same token when it stands alone, and
  no slice could have been longer.

Design notes.  Offsets are counted in bytes and the text is a list of characters.  Both
meet in `slice` alone, which cuts a string at byte offsets as the standard library does.
-/
import FilterQuery.Proofs.Token.Piece
import Mathlib.Data.List.Chain

namespace FilterQuery

/-- A piece of a text with the lexeme that it is cut off as. -/
structure Segment where
  text : List Char
  lexeme : Lexeme

/-- Pieces are cut off a text one after the other, and a text is left. -/
inductive Segments : List Char → List Segment → List Char → Prop
  | nil (rest : List Char) : Segments rest [] rest
  | cons {w text rest : List Char} {x : Lexeme} {ss : List Segment} :
      Piece w x text → Segments text ss rest → Segments (w ++ text) (⟨w, x⟩ :: ss) rest

/-- The text that some segments make up. -/
def joinText (ss : List Segment) : List Char :=
  ss.flatMap Segment.text

/-- The tokens of some segments, the first of which starts at a byte offset. -/
def place (offset : Nat) : List Segment → List Token
  | [] => []
  | s :: ss => ⟨s.lexeme, offset⟩ :: place (offset + byteLength s.text) ss

/-! ### Scans -/

/-- **A scan finds segments.**  Nothing is left of the text unless there is a fault. -/
theorem exists_segments (offset : Nat) (text : List Char) :
    ∃ ss rest, Segments text ss rest ∧ (scanFrom offset text).tokens = place offset ss ∧
      ((scanFrom offset text).failure = none → rest = []) := by
  fun_induction scanFrom offset text with
  | case1 offset => exact ⟨[], [], .nil [], rfl, fun _ => rfl⟩
  | case2 offset c cs k hcut ih =>
    obtain ⟨ss, rest, hss, hts, hrest⟩ := ih
    obtain ⟨w, htext, hsize, hpiece⟩ := piece_of_cut hcut
    refine ⟨⟨w, k.lexeme⟩ :: ss, rest, ?_, ?_, hrest⟩
    · rw [htext]
      exact .cons hpiece hss
    · rw [place, ← hsize, ← hts]
      rfl
  | case3 offset c cs fault hcut =>
    refine ⟨[], c :: cs, .nil _, rfl, ?_⟩
    intro hnone
    cases hnone

theorem scanFrom_of_segments {text : List Char} {ss : List Segment} (h : Segments text ss [])
    (offset : Nat) : scanFrom offset text = ⟨place offset ss, none⟩ := by
  generalize hrest : ([] : List Char) = rest at h
  induction h generalizing offset with
  | nil =>
    subst hrest
    rw [scanFrom]
    rfl
  | cons hpiece _ ih =>
    obtain ⟨c, cs, htext, hcut⟩ := cut_of_piece hpiece
    rw [htext, scanFrom]
    split
    · next k hk =>
      cases hcut.symm.trans hk
      rw [ih _ hrest]
      rfl
    · next hk => cases hcut.symm.trans hk

namespace Segments

variable {text rest : List Char} {ss : List Segment}

theorem text_eq (h : Segments text ss rest) : text = joinText ss ++ rest := by
  induction h with
  | nil => rfl
  | cons _ _ ih => rw [ih]; simp [joinText]

theorem alone (h : Segments text ss rest) : ∀ s ∈ ss, Piece s.text s.lexeme [] := by
  induction h with
  | nil => exact nofun
  | cons hpiece _ ih => exact List.forall_mem_cons.mpr ⟨hpiece.alone, ih⟩

theorem not_merges (h : Segments text ss rest) :
    (ss.map Segment.lexeme).IsChain fun x y => ¬ Merges x y := by
  induction h with
  | nil => exact .nil
  | cons hpiece hss ih =>
    cases hss with
    | nil => exact .singleton _
    | cons hnext _ => exact .cons_cons (hpiece.not_merges hnext) ih

end Segments

/-! ### Offsets -/

theorem map_lexeme_place (offset : Nat) (ss : List Segment) :
    (place offset ss).map Token.lexeme = ss.map Segment.lexeme := by
  induction ss generalizing offset with
  | nil => rfl
  | cons s ss ih => rw [place, List.map_cons, ih, List.map_cons]

/-- A token starts after some whole characters, and before the end of the text. -/
theorem offset_of_mem_place {ss : List Segment} (hss : ∀ s ∈ ss, s.text ≠ [])
    (before : List Char) :
    ∀ t ∈ place (byteLength before) ss, ∃ l r, r ≠ [] ∧ joinText ss = l ++ r ∧
      t.offset = byteLength (before ++ l) := by
  induction ss generalizing before with
  | nil => exact nofun
  | cons s ss ih =>
    obtain ⟨hs, hss⟩ := List.forall_mem_cons.mp hss
    intro t ht
    rcases List.mem_cons.mp ht with rfl | ht
    · refine ⟨[], joinText (s :: ss), ?_, rfl, by rw [List.append_nil]⟩
      simp [joinText, hs]
    · rw [← byteLength_append] at ht
      obtain ⟨l, r, hr, htext, hoffset⟩ := ih hss (before ++ s.text) t ht
      refine ⟨s.text ++ l, r, hr, ?_, ?_⟩
      · show s.text ++ joinText ss = _
        rw [htext, List.append_assoc]
      · rw [hoffset, List.append_assoc]

theorem offset_lt_of_mem_place {ss : List Segment} (hss : ∀ s ∈ ss, s.text ≠ []) :
    ∀ t ∈ place 0 ss, t.offset < byteLength (joinText ss) := by
  intro t ht
  obtain ⟨l, r, hr, htext, hoffset⟩ := offset_of_mem_place hss [] t ht
  have hpos := byteLength_pos hr
  rw [hoffset, htext, List.nil_append, byteLength_append]
  omega

theorem offset_le_of_mem_place {offset : Nat} {ss : List Segment} :
    ∀ t ∈ place offset ss, offset ≤ t.offset := by
  induction ss generalizing offset with
  | nil => exact nofun
  | cons s ss ih =>
    intro t ht
    rcases List.mem_cons.mp ht with rfl | ht
    · exact Nat.le_refl _
    · have := ih t ht
      omega

theorem pairwise_place {offset : Nat} {ss : List Segment} (hss : ∀ s ∈ ss, s.text ≠ []) :
    (place offset ss).Pairwise fun t u => t.offset < u.offset := by
  induction ss generalizing offset with
  | nil => exact .nil
  | cons s ss ih =>
    obtain ⟨hs, hss⟩ := List.forall_mem_cons.mp hss
    refine .cons (fun t ht => ?_) (ih hss)
    have hle := offset_le_of_mem_place t ht
    have hpos := byteLength_pos hs
    show offset < t.offset
    omega

/-- Whether or not there is a fault, tokens start at growing offsets. -/
theorem pairwise_scan (query : String) :
    (scan query).tokens.Pairwise fun t u => t.offset < u.offset := by
  obtain ⟨ss, rest, hss, hts, -⟩ := exists_segments 0 query.toList
  rw [scan, hts]
  exact pairwise_place fun s hs => (hss.alone s hs).ne_nil

theorem offset_lt_of_mem_scan {query : String} :
    ∀ t ∈ (scan query).tokens, t.offset < query.utf8ByteSize := by
  intro t ht
  obtain ⟨ss, rest, hss, hts, -⟩ := exists_segments 0 query.toList
  rw [scan, hts] at ht
  have hlt := offset_lt_of_mem_place (fun s hs => (hss.alone s hs).ne_nil) t ht
  rw [← byteLength_toList, hss.text_eq, byteLength_append]
  omega

/-! ### Slices -/

/-- The part of a text between two byte offsets. -/
def slice (query : String) (start stop : Nat) : String :=
  String.Pos.Raw.extract query ⟨start⟩ ⟨stop⟩

/-- The pairs of neighbours in a list of tokens. -/
def neighbours (ts : List Token) : List (Token × Token) :=
  ts.zip ts.tail

/-- The text from every token to the next one. -/
def slices (query : String) (ts : List Token) : List String :=
  (neighbours ts).map fun p => slice query p.1.offset p.2.offset

/-- The tokens of segments, and the end of their text. -/
def placeAll (offset : Nat) (ss : List Segment) : List Token :=
  place offset ss ++ [⟨.ending, offset + byteLength (joinText ss)⟩]

theorem slice_of_append (before w after : List Char) :
    slice (String.ofList (before ++ w ++ after)) (byteLength before) (byteLength (before ++ w)) =
      String.ofList w := by
  rw [slice, byteLength_append, byteLength_eq_utf8Len, byteLength_eq_utf8Len]
  exact String.extract_of_valid before w after

theorem placeAll_eq_cons (offset : Nat) (ss : List Segment) :
    ∃ x us, placeAll offset ss = ⟨x, offset⟩ :: us := by
  cases ss with
  | nil => exact ⟨.ending, [], rfl⟩
  | cons s ss => exact ⟨s.lexeme, _, rfl⟩

/-- From a token to the next one, the text is the segment of the token. -/
theorem map_slice_placeAll (before : List Char) (ss : List Segment) :
    (neighbours (placeAll (byteLength before) ss)).map
      (fun p => (slice (String.ofList (before ++ joinText ss)) p.1.offset p.2.offset, p.1.lexeme)) =
      ss.map fun s => (String.ofList s.text, s.lexeme) := by
  induction ss generalizing before with
  | nil => rfl
  | cons s ss ih =>
    have htext : before ++ joinText (s :: ss) = before ++ s.text ++ joinText ss := by
      simp [joinText]
    have hlength : byteLength before + byteLength (joinText (s :: ss)) =
        byteLength (before ++ s.text) + byteLength (joinText ss) := by
      rw [← byteLength_append, htext, byteLength_append]
    have htokens : placeAll (byteLength before) (s :: ss) =
        ⟨s.lexeme, byteLength before⟩ :: placeAll (byteLength (before ++ s.text)) ss := by
      rw [placeAll, placeAll, hlength, place, ← byteLength_append]
      rfl
    have ih := ih (before ++ s.text)
    -- The next token starts where the segment ends.
    obtain ⟨x, us, hus⟩ := placeAll_eq_cons (byteLength (before ++ s.text)) ss
    rw [hus] at ih
    rw [htext, htokens, hus]
    show (slice _ (byteLength before) (byteLength (before ++ s.text)), s.lexeme) ::
      (neighbours (⟨x, byteLength (before ++ s.text)⟩ :: us)).map _ = _
    rw [ih, slice_of_append]
    rfl

/-! ### The tokens of a text -/

/-- The tokens divide the text: they start at growing offsets on the boundaries of
characters, the slices between them make up the text, each slice alone is its token,
and each is as long as it can be. -/
structure Segmented (query : String) (ts : List Token) : Prop where
  last : ts.getLast? = some ⟨.ending, query.utf8ByteSize⟩
  ne_ending : ∀ t ∈ ts.dropLast, t.lexeme ≠ .ending
  first : ts.head?.map Token.offset = some 0
  increasing : ts.Pairwise fun t u => t.offset < u.offset
  boundary : ∀ t ∈ ts, String.Pos.Raw.IsValid query ⟨t.offset⟩
  join : String.join (slices query ts) = query
  ne_empty : ∀ s ∈ slices query ts, s ≠ ""
  alone : ∀ p ∈ neighbours ts, tokenize (slice query p.1.offset p.2.offset) =
    .ok [⟨p.1.lexeme, 0⟩, ⟨.ending, (slice query p.1.offset p.2.offset).utf8ByteSize⟩]
  maximal : (ts.map Token.lexeme).IsChain fun x y => ¬ Merges x y

/-- A segment that stands alone is the token that it was. -/
theorem tokenize_of_piece {w : List Char} {x : Lexeme} (h : Piece w x []) :
    tokenize (String.ofList w) = .ok [⟨x, 0⟩, ⟨.ending, (String.ofList w).utf8ByteSize⟩] := by
  have hsegments : Segments w [⟨w, x⟩] [] := by
    simpa using Segments.cons h (.nil [])
  have hscan := scanFrom_of_segments hsegments 0
  refine tokenize_eq_ok_iff.mpr ?_
  rw [scan, String.toList_ofList, hscan]
  exact ⟨rfl, rfl⟩

/-- The tokens of a query come from segments that make it up. -/
theorem exists_segments_of_tokenize {query : String} {ts : List Token}
    (h : tokenize query = .ok ts) :
    ∃ ss, Segments query.toList ss [] ∧ query = String.ofList (joinText ss) ∧
      ts = placeAll 0 ss := by
  obtain ⟨hfailure, rfl⟩ := tokenize_eq_ok_iff.mp h
  obtain ⟨ss, rest, hss, hts, hrest⟩ := exists_segments 0 query.toList
  obtain rfl := hrest hfailure
  have htext := hss.text_eq
  rw [List.append_nil] at htext
  refine ⟨ss, hss, by rw [← htext, String.ofList_toList], ?_⟩
  rw [placeAll, ← htext, byteLength_toList, scan, hts, Nat.zero_add]

theorem slices_placeAll (ss : List Segment) :
    slices (String.ofList (joinText ss)) (placeAll 0 ss) =
      ss.map fun s => String.ofList s.text := by
  have hmap := congrArg (List.map Prod.fst) (map_slice_placeAll [] ss)
  rw [List.map_map, List.map_map] at hmap
  exact hmap

theorem exists_segment_of_neighbours (ss : List Segment) :
    ∀ p ∈ neighbours (placeAll 0 ss), ∃ s ∈ ss,
      slice (String.ofList (joinText ss)) p.1.offset p.2.offset = String.ofList s.text ∧
        p.1.lexeme = s.lexeme := by
  intro p hp
  have hmem := List.mem_map_of_mem (f := fun p : Token × Token =>
    (slice (String.ofList ([] ++ joinText ss)) p.1.offset p.2.offset, p.1.lexeme)) hp
  rw [show placeAll 0 ss = placeAll (byteLength []) ss from rfl, map_slice_placeAll] at hmem
  obtain ⟨s, hs, heq⟩ := List.mem_map.mp hmem
  obtain ⟨htext, hlexeme⟩ := Prod.mk.inj heq
  exact ⟨s, hs, htext.symm, hlexeme.symm⟩

/-- Tokens start at growing offsets, and the end of the text comes last. -/
theorem pairwise_placeAll {ss : List Segment} (hss : ∀ s ∈ ss, s.text ≠ []) :
    (placeAll 0 ss).Pairwise fun t u => t.offset < u.offset := by
  refine List.pairwise_append.mpr ⟨pairwise_place hss, List.pairwise_singleton _ _, ?_⟩
  intro t ht u hu
  have hlt := offset_lt_of_mem_place hss t ht
  rw [List.mem_singleton.mp hu]
  show t.offset < 0 + byteLength (joinText ss)
  omega

theorem isValid_of_mem_placeAll {ss : List Segment} (hss : ∀ s ∈ ss, s.text ≠ []) :
    ∀ t ∈ placeAll 0 ss, String.Pos.Raw.IsValid (String.ofList (joinText ss)) ⟨t.offset⟩ := by
  intro t ht
  rw [String.Pos.Raw.isValid_iff_exists_append]
  rcases List.mem_append.mp ht with ht | ht
  · obtain ⟨l, r, -, htext, hoffset⟩ := offset_of_mem_place hss [] t ht
    refine ⟨String.ofList l, String.ofList r, by rw [htext, String.ofList_append], ?_⟩
    rw [hoffset, String.rawEndPos_ofList, byteLength_eq_utf8Len]
    rfl
  · refine ⟨String.ofList (joinText ss), "", by simp, ?_⟩
    rw [List.mem_singleton.mp ht, String.rawEndPos_ofList, byteLength_eq_utf8Len, Nat.zero_add]

theorem not_merges_placeAll {text : List Char} {ss : List Segment} (h : Segments text ss []) :
    ((placeAll 0 ss).map Token.lexeme).IsChain fun x y => ¬ Merges x y := by
  rw [placeAll, List.map_append, map_lexeme_place]
  refine List.isChain_append.mpr ⟨h.not_merges, .singleton _, ?_⟩
  intro x _ y hy
  obtain rfl : Lexeme.ending = y := by simpa using hy
  intro hm
  cases hm with
  | words _ hy => cases hy

/-- **The tokens of a text divide it without a gap.**  If a text has tokens, they start at
growing offsets, all of them on the boundaries of characters, the last one being the end
of the text and no other.  The slices from one token to the next are not empty and make
up the text, every slice alone has its token as its only one, and no two neighbours
could have been one token. -/
theorem tokenize_segmented (query : String) (ts : List Token) (h : tokenize query = .ok ts) :
    Segmented query ts := by
  obtain ⟨ss, hss, hquery, rfl⟩ := exists_segments_of_tokenize h
  have hne : ∀ s ∈ ss, s.text ≠ [] := fun s hs => (hss.alone s hs).ne_nil
  have hslices := slices_placeAll ss
  rw [← hquery] at hslices
  have hsize : query.utf8ByteSize = 0 + byteLength (joinText ss) := by
    rw [Nat.zero_add, ← byteLength_toList, hquery, String.toList_ofList]
  constructor
  case last => rw [placeAll, List.getLast?_append, hsize]; rfl
  case ne_ending =>
    have hscan := @lexeme_ne_ending_of_mem_scanFrom 0 query.toList
    rw [scanFrom_of_segments hss] at hscan
    rw [placeAll, List.dropLast_concat]
    exact hscan
  case first =>
    obtain ⟨x, us, hus⟩ := placeAll_eq_cons 0 ss
    rw [hus]
    rfl
  case increasing => exact pairwise_placeAll hne
  case boundary => rw [hquery]; exact isValid_of_mem_placeAll hne
  case join =>
    rw [hslices, String.join_eq, List.map_map]
    conv_rhs => rw [hquery]
    simp [joinText, List.flatMap, Function.comp_def]
  case ne_empty =>
    intro s hs
    rw [hslices] at hs
    obtain ⟨segment, hsegment, rfl⟩ := List.mem_map.mp hs
    simpa using hne segment hsegment
  case alone =>
    intro p hp
    obtain ⟨s, hs, htext, hlexeme⟩ := exists_segment_of_neighbours ss p hp
    rw [← hquery] at htext
    rw [htext, hlexeme]
    exact tokenize_of_piece (hss.alone s hs)
  case maximal => exact not_merges_placeAll hss

/-- Characters of two bytes, a quoted delimiter, and pieces that touch each other. -/
theorem segmented_accented :
    let query := "é>=\"ü\\\"\" oR(x"
    let ts : List Token := [⟨.word .symbol "é", 0⟩, ⟨.compare .ge, 2⟩, ⟨.word .quoted "ü\"", 4⟩,
      ⟨.blank, 10⟩, ⟨.connect .or, 11⟩, ⟨.opening, 13⟩, ⟨.word .symbol "x", 14⟩, ⟨.ending, 15⟩]
    tokenize query = .ok ts ∧ Segmented query ts := by
  intro query ts
  have htok : tokenize query = .ok ts := by decide +kernel
  exact ⟨htok, tokenize_segmented query ts htok⟩

end FilterQuery
