import Onyxup.Lib.LexicalPath
import Onyxup.Server.Loop

/-!
Contract: `defaultStaticResourcesCallback`, the handler of static files, and its
cache.

Owns: the choice of the MIME type, the path that is opened, the cache over
whole sequences of requests, the exact condition under which the cache is
transparent, and the exact condition under which the opened file lies in the
configured directory.

Does not own: the file system, which is a function from paths to contents, and
the routes that lead here.

The MIME type comes from the full URI, the cache key and the path from the URI
without its query. The path is cut to what fits into `char path_to_file[120]`.
-/

set_option autoImplicit false

namespace Onyxup.Static

open Onyxup.Lib.CString
open Onyxup.Lib.LexicalPath
open Onyxup.Http
open Onyxup.Http.Parser
open Onyxup.Response
open Onyxup.Server (headerSlots Route)

/-- `MimeType::generateMimeTypesMap`. -/
def mimeTypesMap : List (Bytes × Bytes) :=
  [(ascii "css", ascii "text/css"),
    (ascii "html", mimeTextHtml),
    (ascii "jpg", ascii "image/jpeg"),
    (ascii "png", ascii "image/png"),
    (ascii "json", ascii "application/json; charset=utf-8"),
    (ascii "jpeg", ascii "image/jpeg"),
    (ascii "js", ascii "application/javascript"),
    (ascii "woff2", ascii "application/font-woff"),
    (ascii "svg", ascii "image/svg+xml")]

/-- What the callback takes from the server and from the machine. `files` is
what an `ifstream` on a path reads, when it is good. -/
structure Site where
  pathToStaticResources : Bytes
  files : Bytes → Option Bytes
  body404 : Bytes

/-- `cachedStaticResourcesMap`. -/
abbrev Cache := Finmap fun _ : Bytes => ResponseBase

/-- The MIME type for the text behind the last dot. -/
def typeOf (text : Bytes) : Option Bytes :=
  match afterLast text 46 with
  | none => none
  | some extension =>
      if 9 < extension.length then none else mimeTypesMap.lookup extension

/-- The type for the full URI, query included; none when the callback answers 404
at once. -/
def contentType (request : Request) : Option Bytes :=
  typeOf request.fullUri

/-- `snprintf(path_to_file, 120, "%s%s", ...)`. -/
def pathToFile (site : Site) (request : Request) : Bytes :=
  (cString site.pathToStaticResources ++ cString request.uri).take 119

def response404 (site : Site) : ResponseBase :=
  .make 404 (ascii "Not Found") mimeTextHtml site.body404

/-- The part of the callback that both branches have: read the file, put the
response into the cache. -/
def readResource (site : Site) (cache : Cache) (request : Request) (mimeType : Bytes) :
    ResponseBase × Cache :=
  match site.files (pathToFile site request) with
  | some buf =>
      let response := .make 200 (ascii "OK") mimeType buf
      (response, cache.insert request.uri response)
  | none => (response404 site, cache)

/-- `defaultStaticResourcesCallback`. -/
def defaultStaticResourcesCallback (site : Site) (isCachedStaticResources : Bool)
    (cache : Cache) (request : Request) : ResponseBase × Cache :=
  match contentType request with
  | none => (response404 site, cache)
  | some mimeType =>
      if isCachedStaticResources then
        match cache.lookup request.uri with
        | none => readResource site cache request mimeType
        | some response => (response, cache)
      else readResource site cache request mimeType

/-- The responses to a sequence of requests with the cache on. -/
def cachedRun (site : Site) : Cache → List Request → List ResponseBase
  | _, [] => []
  | cache, request :: rest =>
      let answered := defaultStaticResourcesCallback site true cache request
      answered.1 :: cachedRun site answered.2 rest

/-! ## The cache over a sequence of requests -/

/-- The response of the callback with the cache off. -/
def uncached (site : Site) (request : Request) : ResponseBase :=
  match contentType request with
  | none => response404 site
  | some mimeType =>
      match site.files (pathToFile site request) with
      | some buf => .make 200 (ascii "OK") mimeType buf
      | none => response404 site

/-- Two requests that share a cache entry have the same type. -/
def Agree (site : Site) (first second : Request) : Prop :=
  first.uri = second.uri → (site.files (pathToFile site first)).isSome = true →
    ∀ one other, contentType first = some one → contentType second = some other → one = other

section Caching

variable {site : Site} {cache : Cache}

/-- With the cache off the callback does not look at it. -/
theorem callback_uncached (site : Site) (cache : Cache) (request : Request) :
    (defaultStaticResourcesCallback site false cache request).1 = uncached site request := by
  unfold defaultStaticResourcesCallback uncached
  cases contentType request with
  | none => rfl
  | some mimeType =>
      simp only [Bool.false_eq_true, if_false, readResource]
      cases site.files (pathToFile site request) <;> rfl

/-- The cache holds, under each URI, the response to some request of `seen`, and
nothing only where no request of `seen` was answered from a file. -/
structure Holds (site : Site) (cache : Cache) (seen : List Request) : Prop where
  hit : ∀ uri response, cache.lookup uri = some response →
    ∃ request ∈ seen, request.uri = uri ∧ (contentType request).isSome = true ∧
      (site.files (pathToFile site request)).isSome = true ∧ response = uncached site request
  miss : ∀ request ∈ seen, cache.lookup request.uri = none →
    contentType request = none ∨ site.files (pathToFile site request) = none

theorem Holds.empty (site : Site) : Holds site ∅ [] where
  hit := fun uri response found => by simp at found
  miss := fun request member => by simp at member

/-- The path is that of the URI. -/
theorem pathToFile_congr {first second : Request} (same : first.uri = second.uri) :
    pathToFile site first = pathToFile site second := by
  simp only [pathToFile, same]

namespace Agree

variable {first second : Request}

theorem refl (request : Request) : Agree site request request := by
  intro _ _ one other hasOne hasOther
  rw [hasOne] at hasOther
  exact Option.some.inj hasOther

theorem symm (agree : Agree site first second) : Agree site second first := by
  intro same opens one other hasOne hasOther
  rw [pathToFile_congr same] at opens
  exact (agree same.symm opens other one hasOther hasOne).symm

/-- A request without a type or without a file shares no entry. -/
theorem of_absent
    (absent : contentType second = none ∨ site.files (pathToFile site second) = none) :
    Agree site first second := by
  intro same opens one other _ hasOther
  rcases absent with noType | noFile
  · rw [noType] at hasOther
    cases hasOther
  · rw [pathToFile_congr same, noFile] at opens
    cases opens

/-- Requests that share an entry agree exactly when their responses are equal. -/
theorem iff_uncached_eq (same : first.uri = second.uri)
    (opens : (site.files (pathToFile site first)).isSome = true)
    (hasOne : (contentType first).isSome = true)
    (hasOther : (contentType second).isSome = true) :
    Agree site first second ↔ uncached site first = uncached site second := by
  obtain ⟨one, isOne⟩ := Option.isSome_iff_exists.mp hasOne
  obtain ⟨other, isOther⟩ := Option.isSome_iff_exists.mp hasOther
  obtain ⟨buf, found⟩ := Option.isSome_iff_exists.mp opens
  have foundAgain := found
  rw [pathToFile_congr same] at foundAgain
  have responses : uncached site first = .make 200 (ascii "OK") one buf ∧
      uncached site second = .make 200 (ascii "OK") other buf := by
    simp only [uncached, isOne, isOther, found, foundAgain, and_self]
  rw [responses.1, responses.2]
  constructor
  · intro agree
    rw [agree same opens one other isOne isOther]
  · intro equal _ _ left right isLeft isRight
    rw [isOne] at isLeft
    rw [isOther] at isRight
    cases isLeft
    cases isRight
    exact congrArg ResponseBase.mimeType equal

end Agree

/-- All requests of a list agree with each other. -/
def AllAgree (site : Site) (requests : List Request) : Prop :=
  ∀ first ∈ requests, ∀ second ∈ requests, Agree site first second

private theorem AllAgree.concat {seen : List Request} {request : Request}
    (all : AllAgree site seen) (agrees : ∀ first ∈ seen, Agree site first request) :
    AllAgree site (seen ++ [request]) := by
  intro first firstMember second secondMember
  rcases List.mem_append.mp firstMember with old | new
  · rcases List.mem_append.mp secondMember with alsoOld | alsoNew
    · exact all first old second alsoOld
    · rw [List.mem_singleton.mp alsoNew]
      exact agrees first old
  · rw [List.mem_singleton.mp new]
    rcases List.mem_append.mp secondMember with alsoOld | alsoNew
    · exact (agrees second alsoOld).symm
    · rw [List.mem_singleton.mp alsoNew]
      exact .refl request

private theorem Holds.keep {seen : List Request} {request : Request}
    (holds : Holds site cache seen)
    (absent : cache.lookup request.uri = none →
      contentType request = none ∨ site.files (pathToFile site request) = none) :
    Holds site cache (seen ++ [request]) where
  hit := by
    intro uri response found
    obtain ⟨earlier, member, rest⟩ := holds.hit uri response found
    exact ⟨earlier, List.mem_append_left _ member, rest⟩
  miss := by
    intro other member missing
    rcases List.mem_append.mp member with old | new
    · exact holds.miss other old missing
    · rw [List.mem_singleton.mp new] at missing ⊢
      exact absent missing

private theorem Holds.store {seen : List Request} {request : Request}
    (holds : Holds site cache seen) (typed : (contentType request).isSome = true)
    (opens : (site.files (pathToFile site request)).isSome = true) :
    Holds site (cache.insert request.uri (uncached site request)) (seen ++ [request]) where
  hit := by
    intro uri response found
    by_cases isKey : uri = request.uri
    · rw [isKey, Finmap.lookup_insert] at found
      cases found
      exact ⟨request, List.mem_append_right _ (List.mem_singleton_self _), isKey.symm, typed,
        opens, rfl⟩
    · rw [Finmap.lookup_insert_of_ne _ isKey] at found
      obtain ⟨earlier, member, rest⟩ := holds.hit uri response found
      exact ⟨earlier, List.mem_append_left _ member, rest⟩
  miss := by
    intro other member missing
    have notKey : other.uri ≠ request.uri := by
      intro isKey
      rw [isKey, Finmap.lookup_insert] at missing
      cases missing
    rw [Finmap.lookup_insert_of_ne _ notKey] at missing
    rcases List.mem_append.mp member with old | new
    · exact holds.miss other old missing
    · exact absurd (congrArg Request.uri (List.mem_singleton.mp new)) notKey

private theorem cachedRun_iff (site : Site) (requests : List Request) :
    ∀ {cache : Cache} {seen : List Request}, Holds site cache seen → AllAgree site seen →
      (cachedRun site cache requests = requests.map (uncached site) ↔
        AllAgree site (seen ++ requests)) := by
  -- `seen` is what the cache has been filled from.
  induction requests with
  | nil =>
      intro cache seen _ all
      rw [List.append_nil]
      exact iff_of_true rfl all
  | cons request rest inductionHypothesis =>
      intro cache seen holds all
      -- what remains once the response is known to be the uncached one
      have proceed : ∀ after, defaultStaticResourcesCallback site true cache request =
            (uncached site request, after) →
          Holds site after (seen ++ [request]) →
          (∀ first ∈ seen, Agree site first request) →
          (cachedRun site cache (request :: rest) = (request :: rest).map (uncached site) ↔
            AllAgree site (seen ++ request :: rest)) := by
        intro after answered holdsAfter agrees
        have later := inductionHypothesis holdsAfter (all.concat agrees)
        rw [List.append_assoc, List.singleton_append] at later
        rw [← later]
        simp only [cachedRun, answered, List.map_cons, List.cons.injEq, true_and]
      cases typed : contentType request with
      | none =>
          refine proceed cache ?_ (holds.keep fun _ => .inl typed) fun _ _ =>
            .of_absent (.inl typed)
          simp only [defaultStaticResourcesCallback, uncached, typed]
      | some mimeType =>
          have isTyped : (contentType request).isSome = true := by rw [typed]; rfl
          cases entry : cache.lookup request.uri with
          | none =>
              cases file : site.files (pathToFile site request) with
              | none =>
                  refine proceed cache ?_ (holds.keep fun _ => .inr file) fun _ _ =>
                    .of_absent (.inr file)
                  simp only [defaultStaticResourcesCallback, uncached, typed, entry, file,
                    readResource, if_true]
              | some buf =>
                  have opens : (site.files (pathToFile site request)).isSome = true := by
                    rw [file]; rfl
                  refine proceed _ ?_ (holds.store isTyped opens) fun first member => ?_
                  · simp only [defaultStaticResourcesCallback, uncached, typed, entry, file,
                      readResource, if_true]
                  · intro same opensFirst one other hasOne _
                    rw [← same] at entry
                    rcases holds.miss first member entry with noType | noFile
                    · rw [noType] at hasOne
                      cases hasOne
                    · rw [noFile] at opensFirst
                      cases opensFirst
          | some response =>
              obtain ⟨first, member, same, firstTyped, opens, rfl⟩ :=
                holds.hit request.uri response entry
              have answered : defaultStaticResourcesCallback site true cache request =
                  (uncached site first, cache) := by
                simp only [defaultStaticResourcesCallback, typed, entry, if_true]
              have equivalent := Agree.iff_uncached_eq same opens firstTyped isTyped
              by_cases equal : uncached site first = uncached site request
              · refine proceed cache (by rw [answered, equal])
                  (holds.keep fun missing => by rw [entry] at missing; cases missing) ?_
                intro other otherMember sameUri opensOther one two hasOne hasTwo
                obtain ⟨middle, hasMiddle⟩ := Option.isSome_iff_exists.mp firstTyped
                have left := all other otherMember first member (sameUri.trans same.symm)
                  opensOther one middle hasOne hasMiddle
                have right := equivalent.mpr equal same opens middle two hasMiddle hasTwo
                exact left.trans right
              · apply iff_of_false
                · intro sameRun
                  simp only [cachedRun, answered, List.map_cons, List.cons.injEq] at sameRun
                  exact equal sameRun.1
                · intro agrees
                  exact equal (equivalent.mp (agrees first (List.mem_append_left _ member) request
                    (List.mem_append_right _ List.mem_cons_self)))

end Caching

/-- **The cache is transparent.** For every site and every sequence of requests
from an empty cache: each response is the one the callback gives with the cache
off, whatever that call finds in the cache, exactly when any two requests of the
sequence for one URI whose file can be opened have the same MIME type. -/
theorem cache_transparent_iff (site : Site) (requests : List Request) (other : Cache) :
    cachedRun site ∅ requests =
        requests.map (fun request =>
          (defaultStaticResourcesCallback site false other request).1) ↔
      AllAgree site requests := by
  simp only [callback_uncached]
  have whole := cachedRun_iff site requests (.empty site) (fun _ member => by cases member)
  rwa [List.nil_append] at whole

/-- The request for `target`, as the read step leaves it. -/
def requestFor (target : Bytes) : Request :=
  match phrParseRequest headerSlots (ascii "GET " ++ target ++ ascii " HTTP/1.1\r\n\r\n") with
  | (_, some head) => (requestFactory 1 1024).acceptHead head
  | (_, none) => requestFactory 1 1024

/-- A directory with one style sheet in it, and a file beside the directory. -/
def smallSite : Site where
  pathToStaticResources := ascii "/project/"
  files := fun path =>
    if path = ascii "/project//static/a.css" then some (ascii "body {}")
    else if path = ascii "/project//static/../../b.json" then some (ascii "secret")
    else none
  body404 := []

/-- A query that ends like another file type decides the type for everyone. -/
theorem query_changes_cached_type :
    cachedRun smallSite ∅
        [requestFor (ascii "/static/a.css?v.html"), requestFor (ascii "/static/a.css")] ≠
      [requestFor (ascii "/static/a.css?v.html"), requestFor (ascii "/static/a.css")].map
        (fun request => (defaultStaticResourcesCallback smallSite false ∅ request).1) := by
  decide +kernel

/-! ## Where the opened file is -/

/-- The path of the file that a call opens, when it opens one. -/
def openedFile (site : Site) (isCachedStaticResources : Bool) (cache : Cache)
    (request : Request) : Option Bytes :=
  match contentType request with
  | none => none
  | some _ =>
      if isCachedStaticResources ∧ (cache.lookup request.uri).isSome = true then none
      else if (site.files (pathToFile site request)).isSome = true then
        some (pathToFile site request)
      else none

/-- A call that opens no file does not depend on the files. -/
theorem callback_of_unopened {site : Site} {isCachedStaticResources : Bool} {cache : Cache}
    {request : Request}
    (unopened : openedFile site isCachedStaticResources cache request = none) :
    defaultStaticResourcesCallback { site with files := fun _ => none } isCachedStaticResources
        cache request =
      defaultStaticResourcesCallback site isCachedStaticResources cache request := by
  unfold openedFile at unopened
  unfold defaultStaticResourcesCallback
  split at unopened
  next => simp only [response404]
  next mimeType _ =>
    split at unopened
    next cached =>
      obtain ⟨isCached, entry⟩ := cached
      obtain ⟨response, found⟩ := Option.isSome_iff_exists.mp entry
      simp only [if_pos isCached, found]
    next =>
      split at unopened
      next => cases unopened
      next missing =>
        have unread : readResource { site with files := fun _ => none } cache request mimeType =
            readResource site cache request mimeType := by
          simp only [readResource, Option.not_isSome_iff_eq_none.mp missing, response404]
        rw [unread]

/-- What is sent is what was read from the opened file. -/
theorem body_of_openedFile {site : Site} {isCachedStaticResources : Bool} {cache : Cache}
    {request : Request} {path : Bytes}
    (opened : openedFile site isCachedStaticResources cache request = some path) :
    path = pathToFile site request ∧
      site.files path =
        some (defaultStaticResourcesCallback site isCachedStaticResources cache request).1.body := by
  unfold openedFile at opened
  unfold defaultStaticResourcesCallback
  split at opened
  next => cases opened
  next mimeType typed =>
    split at opened
    next => cases opened
    next notCached =>
      split at opened
      next opens =>
        cases opened
        refine ⟨rfl, ?_⟩
        obtain ⟨buf, found⟩ := Option.isSome_iff_exists.mp opens
        have read : (readResource site cache request mimeType).1.body = buf := by
          simp only [readResource, found, ResponseBase.make]
        cases isCachedStaticResources with
        | false => simp only [Bool.false_eq_true, if_false, read, found]
        | true =>
            have noEntry : cache.lookup request.uri = none := by
              simpa using notCached
            simp only [if_true, noEntry, read, found]
      next => cases opened

/-- The condition on the two texts. They share the directory's first 119 bytes up
to the last slash. Behind it the directory climbs and descends, and so does the
opened path; the opened path must not climb further out than the directory does,
and every name of the directory that it leaves it must enter again. -/
def Stays (directory uri : Bytes) : Prop :=
  let opened := (directory ++ uri).take 119
  let shared := stem 47 (directory.take 119)
  let levels := (normalise 47 46 shared).names
  let own := displacement 47 46 (directory.drop shared.length)
  let asked := displacement 47 46 (opened.drop shared.length)
  isRooted 47 opened = isRooted 47 directory ∧
    (isRooted 47 directory = false →
      asked.ups - levels.length = own.ups - levels.length) ∧
    levels.take (levels.length - own.ups) ++ own.names <+:
      levels.take (levels.length - asked.ups) ++ asked.names

/-- The condition is that of the normalised paths. -/
theorem liesInside_iff_stays (directory uri : Bytes) :
    LiesInside 47 46 ((directory ++ uri).take 119) directory ↔ Stays directory uri := by
  have shared := stem_initial 47 (directory.take 119)
  have ownText := List.prefix_iff_eq_append.mp (shared.trans (List.take_prefix 119 directory))
  have askedText := List.prefix_iff_eq_append.mp
    (shared.trans ((List.prefix_append directory uri).take 119))
  have own := normalise_append 47 46
    (directory.drop (stem 47 (directory.take 119)).length) (stem_cases 47 (directory.take 119))
  have asked := normalise_append 47 46
    (((directory ++ uri).take 119).drop (stem 47 (directory.take 119)).length)
    (stem_cases 47 (directory.take 119))
  rw [ownText] at own
  rw [askedText] at asked
  unfold LiesInside Stays
  apply and_congr_right
  intro sameRoot
  rw [own, asked, sameRoot]
  cases isRooted 47 directory <;> simp [Place.Inside, Place.climb, Place.descend]

instance (directory uri : Bytes) : Decidable (Stays directory uri) :=
  inferInstanceAs (Decidable (_ ∧ (_ = false → _ = _) ∧ _))

/-- The usual case, a URI that starts with a slash and is not cut: it must climb
no higher than the directory is deep, unless that is the root, and must come back
through the names it left. -/
theorem stays_of_slash_iff {directory rest : Bytes} (nonempty : directory ≠ [])
    (fits : (directory ++ 47 :: rest).length ≤ 119) :
    Stays directory (47 :: rest) ↔
      (isRooted 47 directory = false →
        (displacement 47 46 rest).ups ≤ (normalise 47 46 directory).names.length) ∧
      (normalise 47 46 directory).names <+:
        (normalise 47 46 directory).names.take
          ((normalise 47 46 directory).names.length - (displacement 47 46 rest).ups) ++
          (displacement 47 46 rest).names := by
  have sameRoot : isRooted 47 (directory ++ 47 :: rest) = isRooted 47 directory := by
    cases directory with
    | nil => exact absurd rfl nonempty
    | cons => rfl
  have joined : directory ++ 47 :: rest = directory ++ [47] ++ rest := by
    rw [List.append_assoc, List.singleton_append]
  have asked := normalise_append 47 46 rest (.inr ⟨directory, rfl⟩)
  rw [← joined, normalise_concat 47 46 nonempty, sameRoot] at asked
  rw [← liesInside_iff_stays, List.take_of_length_le fits, LiesInside, sameRoot, asked]
  cases isRooted 47 directory with
  | true => simp [Place.Inside, Place.climb, Place.descend]
  | false =>
      simp [Place.Inside, Place.climb, Place.descend]
      omega

/-- **Static files stay in their directory.** For every site, cache and request:
when the callback opens a file, the normalised path of that file lies inside the
normalised directory exactly when the two texts meet the condition `Stays`. -/
theorem opened_file_inside_iff (site : Site) (isCachedStaticResources : Bool) (cache : Cache)
    (request : Request) (path : Bytes)
    (opened : openedFile site isCachedStaticResources cache request = some path) :
    LiesInside 47 46 path (cString site.pathToStaticResources) ↔
      Stays (cString site.pathToStaticResources) (cString request.uri) := by
  rw [(body_of_openedFile opened).1]
  exact liesInside_iff_stays _ _

/-- The style sheet is inside. -/
theorem style_sheet_inside :
    LiesInside 47 46 (ascii "/project//static/a.css") (ascii "/project/") :=
  (opened_file_inside_iff smallSite true ∅ (requestFor (ascii "/static/a.css"))
    (ascii "/project//static/a.css") (by decide +kernel)).mpr (by decide +kernel)

/-- The route of the documentation, `^/static/.+$`. -/
def staticRoute : Route where
  method := ascii "GET"
  pregex := fun uri => (ascii "/static/").isPrefixOf uri && decide (8 < uri.length)
  handler := 0
  taskType := .staticResourcesTask

/-- The parser accepts a climbing URI, the route takes it, and the file that is
opened is beside the directory. -/
theorem climbing_uri_escapes :
    (requestFor (ascii "/static/../../b.json")).fullUri = ascii "/static/../../b.json" ∧
      staticRoute.method = (requestFor (ascii "/static/../../b.json")).method ∧
      staticRoute.pregex (cString (requestFor (ascii "/static/../../b.json")).fullUri) = true ∧
      openedFile smallSite true ∅ (requestFor (ascii "/static/../../b.json")) =
        some (ascii "/project//static/../../b.json") ∧
      ¬ LiesInside 47 46 (ascii "/project//static/../../b.json") (ascii "/project/") := by
  decide +kernel

end Onyxup.Static
