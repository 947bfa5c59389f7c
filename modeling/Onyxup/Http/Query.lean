import Onyxup.Http.Request
import Onyxup.Lib.Pieces
import Onyxup.Lib.Search
import Onyxup.Response.Ranges

/-!
Contract: the two parsers of `key=value` texts, `parseParamsRequest` and `urlencoded`.

Owns: what `parseParamsRequest` computes, said without pointers and buffers, the round
trip of every finite map through it, and the texts on which the two parsers agree.

Does not own: percent signs and plus signs, which neither parser decodes.
-/

set_option autoImplicit false

namespace Onyxup.Http

open Onyxup.Lib.CString
open Onyxup.Lib.Pieces
open Onyxup.Response (getlines)

/-! ## The reference -/

/-- One segment: with `=` in it, its halves around the first one are a key and a value. -/
def addSegment (params : Dict) (segment : Bytes) : Dict :=
  match cutAt 61 segment with
  | some (key, value) => params.insert key value
  | none => params

/-- The segments between the ampersands, from left to right. -/
def addSegments (params : Dict) (query : Bytes) : Dict :=
  (query.splitOn 38).foldl addSegment params

/-- The URI in front of the first question mark, and the segments behind it. -/
def referenceRequest (request : Request) : Request :=
  match cutAt 63 request.fullUri with
  | some (path, query) =>
      { request with uri := path, params := addSegments request.params query }
  | none => { request with uri := request.fullUri }

/-- Without a NUL, `strchr` is the cut. -/
theorem strchr_eq_cutAt {text : Bytes} {wanted : UInt8} (nulFree : 0 ∉ text)
    (notNul : wanted ≠ 0) :
    strchr text wanted = (cutAt wanted text).map fun halves => halves.1.length := by
  cases cut : cutAt wanted text with
  | none =>
      rw [Option.map_none, strchr_eq_none_iff, cString_of_nulFree nulFree]
      exact cutAt_eq_none_iff.mp cut
  | some halves =>
      obtain ⟨rfl, missing⟩ := eq_append_of_cutAt cut
      have frontNulFree : 0 ∉ halves.1 := fun member => nulFree (List.mem_append_left _ member)
      exact strchr_append_self frontNulFree missing notNul halves.2

private theorem drop_behind (front : Bytes) (byte : UInt8) (back : Bytes) :
    (front ++ byte :: back).drop (front.length + 1) = back := by
  rw [List.drop_append, List.drop_eq_nil_of_le (Nat.le_succ _), List.nil_append,
    Nat.add_sub_cancel_left, List.drop_succ_cons, List.drop_zero]

theorem addParamToken_eq {token : Bytes} (nulFree : 0 ∉ token) (params : Dict) :
    addParamToken params token = addSegment params token := by
  unfold addParamToken addSegment
  rw [strchr_eq_cutAt nulFree (by decide)]
  cases cut : cutAt 61 token with
  | none => rfl
  | some halves =>
      obtain ⟨rfl, _⟩ := eq_append_of_cutAt cut
      simp only [Option.map_some, List.take_left, drop_behind]

private theorem foldl_addSegment_filter (segments : List Bytes) (params : Dict) :
    (segments.filter (· != [])).foldl addSegment params = segments.foldl addSegment params := by
  induction segments generalizing params with
  | nil => rfl
  | cons segment rest inductionHypothesis =>
      by_cases empty : segment = []
      · rw [empty, List.filter_cons_of_neg (by decide), List.foldl_cons]
        exact inductionHypothesis params
      · rw [List.filter_cons_of_pos (by simpa using empty), List.foldl_cons, List.foldl_cons]
        exact inductionHypothesis _

/-- The loop over the tokens of a copied query. -/
theorem foldl_ampersandTokens {query : Bytes} (nulFree : 0 ∉ query) (params : Dict) :
    (ampersandTokens (query ++ [0])).foldl addParamToken params = addSegments params query := by
  have whole : cString (query ++ [0]) = query := by
    rw [cString_append_of_nulFree nulFree]
    exact List.append_nil query
  have tokens : ∀ params : Dict, ∀ token ∈ (query.splitOn 38).filter (· != []),
      addParamToken params token = addSegment params token := by
    intro params token member
    apply addParamToken_eq
    intro nul
    exact nulFree (mem_of_mem_splitOn (List.mem_filter.mp member).1 nul)
  rw [ampersandTokens, whole, List.foldl_ext _ _ _ tokens, foldl_addSegment_filter, addSegments]

/-- `parseParamsRequest` is the reference on every full URI without NUL. -/
theorem parseParamsRequest_eq (request : Request) (nulFree : 0 ∉ request.fullUri) :
    parseParamsRequest request request.fullUri.length = referenceRequest request := by
  unfold parseParamsRequest referenceRequest
  rw [strchr_eq_cutAt nulFree (by decide)]
  cases cut : cutAt 63 request.fullUri with
  | none => rfl
  | some halves =>
      obtain ⟨path, query⟩ := halves
      obtain ⟨whole, _⟩ := eq_append_of_cutAt cut
      rw [whole] at nulFree ⊢
      have copied : ((path ++ 63 :: query ++ [0]).drop (path.length + 1)).take
          ((path ++ 63 :: query).length - path.length) = query ++ [0] := by
        rw [List.append_assoc, List.cons_append, drop_behind]
        apply List.take_of_length_le
        simp
      rw [Option.map_some]
      dsimp only
      rw [copied, List.take_left, foldl_ampersandTokens]
      intro nul
      exact nulFree (List.mem_append_right _ (List.mem_cons_of_mem _ nul))

/-! ## The round trip -/

/-- The entries of a finite map, in some order. -/
structure Enumerates (params : Dict) (entries : List (Bytes × Bytes)) : Prop where
  nodup : (entries.map Prod.fst).Nodup
  lookup : ∀ key value, params.lookup key = some value ↔ (key, value) ∈ entries

/-- `k1=v1&...&kn=vn`. -/
def joinParams (entries : List (Bytes × Bytes)) : Bytes :=
  [38].intercalate (entries.map fun entry => entry.1 ++ 61 :: entry.2)

/-- An entry that the separators leave whole. -/
structure Joinable (entry : Bytes × Bytes) : Prop where
  key : 38 ∉ entry.1 ∧ 61 ∉ entry.1 ∧ 0 ∉ entry.1
  value : 38 ∉ entry.2 ∧ 0 ∉ entry.2

section RoundTrip

variable {entries : List (Bytes × Bytes)}

private theorem foldl_addSegment_entries (keys : ∀ entry ∈ entries, 61 ∉ entry.1)
    (params : Dict) :
    (entries.map fun entry => entry.1 ++ 61 :: entry.2).foldl addSegment params =
      entries.foldl (fun params entry => params.insert entry.1 entry.2) params := by
  induction entries generalizing params with
  | nil => rfl
  | cons entry rest inductionHypothesis =>
      obtain ⟨missing, restKeys⟩ := List.forall_mem_cons.mp keys
      rw [List.map_cons, List.foldl_cons, List.foldl_cons, addSegment, cutAt_append missing]
      exact inductionHypothesis restKeys _

/-- Splitting undoes joining. No entries are one empty segment. -/
theorem addSegments_joinParams (joinable : ∀ entry ∈ entries, Joinable entry)
    (params : Dict) :
    addSegments params (joinParams entries) =
      entries.foldl (fun params entry => params.insert entry.1 entry.2) params := by
  by_cases empty : entries = []
  · rw [empty]
    rfl
  · have split : (joinParams entries).splitOn 38 =
        entries.map fun entry => entry.1 ++ 61 :: entry.2 := by
      apply List.splitOn_intercalate
      · intro segment member
        obtain ⟨entry, isEntry, rfl⟩ := List.mem_map.mp member
        have clean := joinable entry isEntry
        simp [clean.key.1, clean.value.1]
      · simpa using empty
    rw [addSegments, split, foldl_addSegment_entries fun entry member =>
      (joinable entry member).key.2.1]

private theorem lookup_foldl_of_not_mem {key : Bytes} (missing : key ∉ entries.map Prod.fst)
    (params : Dict) :
    (entries.foldl (fun params entry => params.insert entry.1 entry.2) params).lookup key =
      params.lookup key := by
  induction entries generalizing params with
  | nil => rfl
  | cons entry rest inductionHypothesis =>
      rw [List.map_cons, List.mem_cons, not_or] at missing
      rw [List.foldl_cons, inductionHypothesis missing.2, Finmap.lookup_insert_of_ne _ missing.1]

private theorem lookup_foldl_of_mem {key value : Bytes} (nodup : (entries.map Prod.fst).Nodup)
    (member : (key, value) ∈ entries) (params : Dict) :
    (entries.foldl (fun params entry => params.insert entry.1 entry.2) params).lookup key =
      some value := by
  induction entries generalizing params with
  | nil => cases member
  | cons entry rest inductionHypothesis =>
      rw [List.map_cons, List.nodup_cons] at nodup
      rw [List.foldl_cons]
      rcases List.mem_cons.mp member with rfl | later
      · rw [lookup_foldl_of_not_mem nodup.1, Finmap.lookup_insert]
      · exact inductionHypothesis nodup.2 later _

/-- A map is rebuilt from its entries. -/
theorem Enumerates.foldl_insert {params : Dict} (enumerates : Enumerates params entries) :
    entries.foldl (fun params entry => params.insert entry.1 entry.2) ∅ = params := by
  apply Finmap.ext_lookup
  intro key
  cases found : params.lookup key with
  | some value =>
      exact lookup_foldl_of_mem enumerates.nodup ((enumerates.lookup key value).mp found) ∅
  | none =>
      rw [lookup_foldl_of_not_mem, Finmap.lookup_empty]
      intro member
      obtain ⟨entry, isEntry, rfl⟩ := List.mem_map.mp member
      rw [(enumerates.lookup entry.1 entry.2).mpr isEntry] at found
      cases found

/-- Entries with different keys are those of the map they make. -/
theorem enumerates_foldl_insert (nodup : (entries.map Prod.fst).Nodup) :
    Enumerates (entries.foldl (fun params entry => params.insert entry.1 entry.2) ∅) entries where
  nodup := nodup
  lookup := by
    intro key value
    constructor
    · intro found
      by_contra absent
      by_cases hasKey : key ∈ entries.map Prod.fst
      · obtain ⟨entry, isEntry, rfl⟩ := List.mem_map.mp hasKey
        rw [lookup_foldl_of_mem nodup isEntry, Option.some_inj] at found
        rw [← found] at absent
        exact absent isEntry
      · rw [lookup_foldl_of_not_mem hasKey, Finmap.lookup_empty] at found
        cases found
    · intro member
      exact lookup_foldl_of_mem nodup member ∅

theorem nulFree_joinParams (joinable : ∀ entry ∈ entries, Joinable entry) :
    0 ∉ joinParams entries := by
  intro nul
  obtain ⟨segment, isSegment, inSegment⟩ := exists_of_mem_intercalate nul (by decide)
  obtain ⟨entry, isEntry, rfl⟩ := List.mem_map.mp isSegment
  have clean := joinable entry isEntry
  simp [clean.key.2.2, clean.value.2] at inSegment

end RoundTrip

/-- **Query parsing.** On every full URI without NUL `parseParamsRequest` is the reference, and
every finite map that the separators leave whole comes back from the text that joins it, with
the URI in front of it. -/
theorem parseParamsRequest_reference_and_round_trip :
    (∀ request : Request, 0 ∉ request.fullUri →
      parseParamsRequest request request.fullUri.length = referenceRequest request) ∧
    (∀ (request : Request) (params : Dict) (entries : List (Bytes × Bytes)) (path : Bytes),
      Enumerates params entries → (∀ entry ∈ entries, Joinable entry) →
      63 ∉ path → 0 ∉ path → request.params = ∅ →
      request.fullUri = path ++ 63 :: joinParams entries →
      parseParamsRequest request request.fullUri.length =
        { request with uri := path, params := params }) := by
  refine ⟨parseParamsRequest_eq, ?_⟩
  intro request params entries path enumerates joinable noQuestion nulFree fresh target
  have clean : 0 ∉ request.fullUri := by
    rw [target]
    simp [nulFree, nulFree_joinParams joinable]
  rw [parseParamsRequest_eq request clean, referenceRequest, target, cutAt_append noQuestion]
  dsimp only
  rw [fresh, addSegments_joinParams joinable, enumerates.foldl_insert]

/-- An empty key, and separators in the values. -/
def trickyEntries : List (Bytes × Bytes) :=
  [([], ascii "a=b"), (ascii "k", ascii "?"), (ascii "e", [])]

/-- The three entries come back. -/
theorem tricky_entries_round_trip :
    (parseParamsRequest
        { requestFactory 1 1024 with fullUri := ascii "/p?=a=b&k=?&e=" } 14).params =
      trickyEntries.foldl (fun params entry => params.insert entry.1 entry.2) ∅ := by
  have joinable : ∀ entry ∈ trickyEntries, Joinable entry :=
    List.forall_mem_cons.mpr ⟨⟨by decide, by decide⟩, List.forall_mem_cons.mpr
      ⟨⟨by decide, by decide⟩, List.forall_mem_singleton.mpr ⟨by decide, by decide⟩⟩⟩
  have parsed := parseParamsRequest_reference_and_round_trip.2
    { requestFactory 1 1024 with fullUri := ascii "/p?=a=b&k=?&e=" } _ trickyEntries (ascii "/p")
    (enumerates_foldl_insert (by decide)) joinable (by decide) (by decide) rfl (by decide)
  exact congrArg Request.params parsed

/-! ## The other parser -/

/-- One turn of the loop of `urlencoded`. -/
def urlencodedToken (params : Dict) (token : Bytes) : Dict :=
  match find token (ascii "=") with
  | none => params
  | some pos =>
      let key := token.take pos
      let value := (token.drop (pos + 1)).take token.length
      if key ≠ [] ∧ value ≠ [] then params.insert key value else params

/-- `urlencoded`. -/
def urlencoded (src : Bytes) : Dict :=
  (getlines 38 src).foldl urlencodedToken ∅

/-- A segment with `=` has something on both sides of the first one. -/
def BothSides (segment : Bytes) : Prop :=
  ∀ key value, cutAt 61 segment = some (key, value) → key ≠ [] ∧ value ≠ []

instance (segment : Bytes) : Decidable (BothSides segment) :=
  decidable_of_iff ((cutAt 61 segment).all fun halves => halves.1 != [] && halves.2 != []) (by
    unfold BothSides
    cases cutAt 61 segment <;> simp [Prod.ext_iff])

theorem urlencodedToken_eq {token : Bytes} (bothSides : BothSides token) (params : Dict) :
    urlencodedToken params token = addSegment params token := by
  have equals : ascii "=" = [61] := by decide
  unfold urlencodedToken addSegment
  rw [equals]
  cases cut : cutAt 61 token with
  | none =>
      have absent : find token [61] = none :=
        find_eq_none_of_not_mem (List.mem_singleton.mpr rfl) (cutAt_eq_none_iff.mp cut)
      rw [absent]
  | some halves =>
      obtain ⟨key, value⟩ := halves
      obtain ⟨rfl, missing⟩ := eq_append_of_cutAt cut
      have position : find (key ++ 61 :: value) [61] = some key.length := by
        have here : find (61 :: value) [61] = some 0 := find_self_append (by simp) value
        rw [find_append_of_not_mem missing, here]
        rfl
      have behind : ((key ++ 61 :: value).drop (key.length + 1)).take (key ++ 61 :: value).length =
          value := by
        rw [drop_behind]
        apply List.take_of_length_le
        simp
        omega
      rw [position]
      dsimp only
      rw [behind, List.take_left, if_pos (bothSides key value cut)]

private theorem foldl_getlines {src : Bytes}
    (bothSides : ∀ segment ∈ src.splitOn 38, BothSides segment) (params : Dict) :
    (getlines 38 src).foldl urlencodedToken params = addSegments params src := by
  have segments : (src.splitOn 38).foldl urlencodedToken params = addSegments params src :=
    List.foldl_ext _ _ _ fun params segment member =>
      urlencodedToken_eq (bothSides segment member) params
  rw [← segments, getlines]
  split
  next empty =>
    obtain ⟨front, pieces⟩ := List.getLast?_eq_some_iff.mp empty
    rw [pieces, List.dropLast_concat, List.foldl_append]
    rfl
  next => rfl

/-- **The two parsers agree.** On every text without NUL in which every segment with `=` has
something on both sides of it, `urlencoded` returns the parameters that `parseParamsRequest`
finds behind a question mark. -/
theorem urlencoded_eq_params (request : Request) (src : Bytes) (nulFree : 0 ∉ src)
    (bothSides : ∀ segment ∈ src.splitOn 38, BothSides segment) (fresh : request.params = ∅)
    (target : request.fullUri = ascii "/?" ++ src) :
    urlencoded src = (parseParamsRequest request request.fullUri.length).params := by
  have slash : ascii "/?" ++ src = [47] ++ 63 :: src := by
    rw [show ascii "/?" = [47, 63] by decide]
    rfl
  have clean : 0 ∉ request.fullUri := by
    rw [target, slash]
    simpa using nulFree
  rw [parseParamsRequest_eq request clean, referenceRequest, target, slash,
    cutAt_append (by decide), urlencoded, foldl_getlines bothSides, fresh]

/-- A leading ampersand, a segment without `=` and a repeated key. -/
theorem repeated_key_agrees :
    urlencoded (ascii "&a=1&b&a=2=3") =
      (parseParamsRequest
        { requestFactory 1 1024 with fullUri := ascii "/?&a=1&b&a=2=3" } 14).params := by
  have pieces : (ascii "&a=1&b&a=2=3").splitOn 38 =
      [[], ascii "a=1", ascii "b", ascii "a=2=3"] := by
    decide
  refine urlencoded_eq_params
    { requestFactory 1 1024 with fullUri := ascii "/?&a=1&b&a=2=3" } (ascii "&a=1&b&a=2=3")
    (by decide) ?_ rfl (by decide)
  rw [pieces]
  exact List.forall_mem_cons.mpr ⟨by decide, List.forall_mem_cons.mpr ⟨by decide,
    List.forall_mem_cons.mpr ⟨by decide, List.forall_mem_singleton.mpr (by decide)⟩⟩⟩

end Onyxup.Http
