import Onyxup.Static.Resources

/-!
Contract: which file a static request names, and what its query does to it.

Owns: the exact condition under which the response does not depend on the query, and
the exact condition under which the body is that of the file at the directory followed
by the URI.

Does not own: the cache. Both results begin with an empty one.
-/

set_option autoImplicit false

namespace Onyxup.Static

open Onyxup.Lib.CString
open Onyxup.Http
open Onyxup.Response

/-- On an empty cache the callback answers as with the cache off. -/
theorem callback_of_empty (site : Site) (isCachedStaticResources : Bool) (request : Request) :
    (defaultStaticResourcesCallback site isCachedStaticResources ∅ request).1 =
      uncached site request := by
  cases isCachedStaticResources with
  | false => exact callback_uncached site ∅ request
  | true =>
      rw [← callback_uncached site ∅ request]
      unfold defaultStaticResourcesCallback
      simp only [Finmap.lookup_empty, if_true, Bool.false_eq_true, if_false]

/-! ## The query -/

/-- The request that `parseParamsRequest` makes of a full URI. -/
def parsedFrom (request : Request) (fullUri : Bytes) : Request :=
  parseParamsRequest { request with fullUri := fullUri } fullUri.length

/-- The same code, MIME type and body. -/
def SameAnswer (first second : ResponseBase) : Prop :=
  first.code = second.code ∧ first.mimeType = second.mimeType ∧ first.body = second.body

section Query

variable {path query : Bytes}

private theorem lookup_of_question {extension : Bytes} (question : 63 ∈ extension) :
    mimeTypesMap.lookup extension = none := by
  rw [List.lookup_eq_none_iff]
  intro pair member
  have clean : (mimeTypesMap.all fun pair => !pair.1.contains 63) = true := by decide
  have noQuestion : 63 ∉ pair.1 := by
    simpa using List.all_eq_true.mp clean pair member
  rw [bne_iff_ne]
  rintro rfl
  exact noQuestion question

/-- With a query, the type is that of the query. -/
theorem typeOf_query (nulFree : 0 ∉ path) : typeOf (path ++ 63 :: query) = typeOf query := by
  have joined : path ++ 63 :: query = (path ++ [63]) ++ query := by simp
  have nulFreeFront : 0 ∉ path ++ [63] := by simpa using nulFree
  by_cases dot : 46 ∈ cString query
  · rw [typeOf, joined, afterLast_append_of_mem nulFreeFront dot, typeOf]
  · have noDot : typeOf query = none := by
      simp only [typeOf, afterLast, if_neg dot]
    rw [noDot, typeOf, joined, afterLast_append_of_not_mem nulFreeFront dot,
      afterLast_append_of_not_mem nulFree (by decide)]
    cases afterLast path 46 with
    | none => rfl
    | some extension =>
        -- The extension reaches through the question mark.
        have question : 63 ∈ extension ++ cString [63] ++ cString query := by simp [cString]
        simp only [Option.map_some, lookup_of_question question, ite_self]

/-- Behind a NUL the question mark is not seen. -/
theorem typeOf_of_nul (nul : 0 ∈ path) : typeOf (path ++ query) = typeOf path := by
  simp only [typeOf, afterLast, cString_append_of_mem nul]

theorem parsedFrom_fullUri (request : Request) (fullUri : Bytes) :
    (parsedFrom request fullUri).fullUri = fullUri := by
  obtain ⟨uri, params, parsed⟩ :=
    parseParamsRequest_frame { request with fullUri := fullUri } fullUri.length
  rw [parsedFrom, parsed]

/-- The path is the URI, also in front of a query. -/
theorem parsedFrom_uri (request : Request) (noQuestion : 63 ∉ path) :
    (parsedFrom request path).uri = path := by
  have unseen : strchr path 63 = none :=
    strchr_eq_none_iff.mpr fun member => noQuestion ((List.takeWhile_prefix _).subset member)
  simp only [parsedFrom, parseParamsRequest, unseen]

theorem parsedFrom_uri_of_query (request : Request) (noQuestion : 63 ∉ path)
    (nulFree : 0 ∉ path) : (parsedFrom request (path ++ 63 :: query)).uri = path := by
  have position := strchr_append_self nulFree noQuestion (by decide) query
  simp only [parsedFrom, parseParamsRequest, position, List.take_left]

theorem parsedFrom_uri_of_nul (request : Request) (noQuestion : 63 ∉ path) (nul : 0 ∈ path) :
    (parsedFrom request (path ++ 63 :: query)).uri = path ++ 63 :: query := by
  have unseen : strchr (path ++ 63 :: query) 63 = none := by
    rw [strchr_eq_none_iff, cString_append_of_mem nul]
    exact fun member => noQuestion ((List.takeWhile_prefix _).subset member)
  simp only [parsedFrom, parseParamsRequest, unseen]

end Query

section Answer

variable (site : Site)

/-- The response for a type and a file, if there are both. -/
def answer (mimeType file : Option Bytes) : ResponseBase :=
  match mimeType, file with
  | some mimeType, some buf => .make 200 (ascii "OK") mimeType buf
  | _, _ => response404 site

theorem uncached_eq_answer (request : Request) :
    uncached site request =
      answer site (typeOf request.fullUri) (site.files (pathToFile site request)) := by
  rw [uncached, contentType]
  cases typeOf request.fullUri with
  | none => rfl
  | some mimeType => cases site.files (pathToFile site request) <;> rfl

/-- The answers from one file are the same if the types are. -/
theorem sameAnswer_iff (file one other : Option Bytes) :
    SameAnswer (answer site one file) (answer site other file) ↔ file = none ∨ one = other := by
  cases file with
  | none =>
      refine iff_of_true ?_ (.inl rfl)
      cases one <;> cases other <;> exact ⟨rfl, rfl, rfl⟩
  | some buf =>
      rw [or_iff_right (by simp)]
      cases one with
      | none =>
          cases other with
          | none => exact iff_of_true ⟨rfl, rfl, rfl⟩ rfl
          | some mimeType =>
              refine iff_of_false ?_ (by simp)
              rintro ⟨sameCode, _⟩
              cases sameCode
      | some mimeType =>
          cases other with
          | none =>
              refine iff_of_false ?_ (by simp)
              rintro ⟨sameCode, _⟩
              cases sameCode
          | some otherType =>
              rw [Option.some_inj]
              constructor
              · rintro ⟨_, sameType, _⟩
                exact sameType
              · rintro rfl
                exact ⟨rfl, rfl, rfl⟩

end Answer

/-- **The query decides the type.** For every file system and every path: the response is the
same with a query as without one exactly if the path ends at a NUL, the file cannot be opened,
or the text behind the last dot of the query has the type that the path has. -/
theorem query_ignored_iff (site : Site) (isCachedStaticResources : Bool) (first second : Request)
    (path query : Bytes) (noQuestion : 63 ∉ path) :
    SameAnswer
        (defaultStaticResourcesCallback site isCachedStaticResources ∅
          (parsedFrom first (path ++ 63 :: query))).1
        (defaultStaticResourcesCallback site isCachedStaticResources ∅
          (parsedFrom second path)).1 ↔
      0 ∈ path ∨
        site.files ((cString site.pathToStaticResources ++ path).take 119) = none ∨
        typeOf path = typeOf query := by
  rw [callback_of_empty, callback_of_empty, uncached_eq_answer, uncached_eq_answer,
    parsedFrom_fullUri, parsedFrom_fullUri, pathToFile, pathToFile,
    parsedFrom_uri second noQuestion]
  by_cases nul : 0 ∈ path
  · rw [parsedFrom_uri_of_nul first noQuestion nul, cString_append_of_mem nul,
      typeOf_of_nul nul]
    exact iff_of_true ⟨rfl, rfl, rfl⟩ (.inl nul)
  · rw [parsedFrom_uri_of_query first noQuestion nul, typeOf_query nul,
      cString_of_nulFree nul, sameAnswer_iff, or_iff_right nul]
    exact or_congr_right eq_comm

/-- A query that ends like the file. -/
theorem same_ending_ignored :
    SameAnswer
      (defaultStaticResourcesCallback smallSite true ∅
        (parsedFrom (requestFactory 1 1024) (ascii "/static/a.css" ++ 63 :: ascii "b.css"))).1
      (defaultStaticResourcesCallback smallSite true ∅
        (parsedFrom (requestFactory 1 1024) (ascii "/static/a.css"))).1 :=
  (query_ignored_iff smallSite true (requestFactory 1 1024) (requestFactory 1 1024)
    (ascii "/static/a.css") (ascii "b.css") (by decide)).mpr (.inr (.inr (by decide)))

/-- A version number behind the style sheet makes it a 404. -/
theorem version_query_not_found :
    ¬ SameAnswer
      (defaultStaticResourcesCallback smallSite true ∅
        (parsedFrom (requestFactory 1 1024) (ascii "/static/a.css" ++ 63 :: ascii "v=1"))).1
      (defaultStaticResourcesCallback smallSite true ∅
        (parsedFrom (requestFactory 1 1024) (ascii "/static/a.css"))).1 := by
  intro same
  exact absurd same.1 (by decide +kernel)

/-! ## The name of the file -/

/-- A 200 response is the content of the file at the directory followed by the URI, and a file
that does not exist is answered with 404. -/
structure NamesItsFile (site : Site) (request : Request) (response : ResponseBase) : Prop where
  found : response.code = 200 →
    site.files (site.pathToStaticResources ++ request.uri) = some response.body
  missing : site.files (site.pathToStaticResources ++ request.uri) = none → response.code = 404

/-- What fits into the buffer is opened under its own name. -/
theorem pathToFile_of_fits {site : Site} {request : Request}
    (directoryNulFree : 0 ∉ site.pathToStaticResources) (uriNulFree : 0 ∉ request.uri)
    (fits : (site.pathToStaticResources ++ request.uri).length ≤ 119) :
    pathToFile site request = site.pathToStaticResources ++ request.uri := by
  rw [pathToFile, cString_of_nulFree directoryNulFree, cString_of_nulFree uriNulFree,
    List.take_of_length_le fits]

private theorem namesItsFile_response404 (site : Site) (request : Request) :
    NamesItsFile site request (response404 site) where
  found := fun isFound => by cases isFound
  missing := fun _ => rfl

private theorem namesItsFile_iff (site : Site) (request : Request) :
    NamesItsFile site request (uncached site request) ↔
      typeOf request.fullUri = none ∨ site.files (pathToFile site request) = none ∨
        site.files (pathToFile site request) =
          site.files (site.pathToStaticResources ++ request.uri) := by
  rw [uncached_eq_answer]
  cases typeOf request.fullUri with
  | none => exact iff_of_true (namesItsFile_response404 site request) (.inl rfl)
  | some mimeType =>
      rw [or_iff_right (by simp)]
      cases site.files (pathToFile site request) with
      | none => exact iff_of_true (namesItsFile_response404 site request) (.inl rfl)
      | some buf =>
          rw [or_iff_right (by simp)]
          constructor
          · intro named
            exact (named.found rfl).symm
          · intro same
            refine ⟨fun _ => same.symm, fun missing => ?_⟩
            rw [missing] at same
            cases same

/-- **The file that is served.** For every directory, file system and URI: the callback serves
the file that was named exactly if it answers 404 for the type, the first 119 bytes of the path
name no file, or they name a file with the same content. A path without NUL that is not longer
than 119 bytes is not shortened. -/
theorem named_file_served_iff (site : Site) (isCachedStaticResources : Bool) (request : Request) :
    (NamesItsFile site request
        (defaultStaticResourcesCallback site isCachedStaticResources ∅ request).1 ↔
      typeOf request.fullUri = none ∨
        site.files ((cString site.pathToStaticResources ++ cString request.uri).take 119) = none ∨
        site.files ((cString site.pathToStaticResources ++ cString request.uri).take 119) =
          site.files (site.pathToStaticResources ++ request.uri)) ∧
    (0 ∉ site.pathToStaticResources → 0 ∉ request.uri →
      (site.pathToStaticResources ++ request.uri).length ≤ 119 →
      NamesItsFile site request
        (defaultStaticResourcesCallback site isCachedStaticResources ∅ request).1) := by
  rw [callback_of_empty]
  refine ⟨namesItsFile_iff site request, ?_⟩
  intro directoryNulFree uriNulFree fits
  rw [namesItsFile_iff, pathToFile_of_fits directoryNulFree uriNulFree fits]
  exact .inr (.inr rfl)

/-- A URI of 114 bytes, with a directory of nine in front of it. -/
def longUri : Bytes :=
  ascii "/static/" ++ List.replicate 102 97 ++ ascii ".css"

/-- A directory in which only the shortened name is a file. -/
def shortenedSite : Site where
  pathToStaticResources := ascii "/project/"
  files := fun path =>
    if path = (ascii "/project/" ++ longUri).take 119 then some (ascii "other") else none
  body404 := []

/-- The last four bytes are cut off, and another file is served. -/
theorem shortened_name_served :
    (defaultStaticResourcesCallback shortenedSite true ∅
        (parsedFrom (requestFactory 1 1024) longUri)).1.code = 200 ∧
      ¬ NamesItsFile shortenedSite (parsedFrom (requestFactory 1 1024) longUri)
        (defaultStaticResourcesCallback shortenedSite true ∅
          (parsedFrom (requestFactory 1 1024) longUri)).1 := by
  have served : (defaultStaticResourcesCallback shortenedSite true ∅
      (parsedFrom (requestFactory 1 1024) longUri)).1.code = 200 := by
    decide +kernel
  refine ⟨served, ?_⟩
  intro named
  have answered := named.missing (by decide +kernel)
  rw [served] at answered
  cases answered

end Onyxup.Static
