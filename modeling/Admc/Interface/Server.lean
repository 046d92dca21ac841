import Admc.Config

/-!
# Searches of the directory

The requests of `AdInterface` to the directory server, through the LDAP library.
How they come out is up to the server and the network: an `Ldap` gives the
outcome of each request in a state of its own, and any of them may be a failure.

A search asks for page after page. Its results are those of all the pages, or
none at all if one of them fails, and have the DNs of the entries of the pages
(`mem_keys_searchResults`). Of the results of a search for one object, the code
takes the one with the DN it has asked for, spelled in the same way.
-/

namespace Admc

/-- The bytes of a `QByteArray`. -/
abbrev QByteArray := List UInt8

/-- `QString::toUtf8`. -/
def toUtf8 (s : String) : QByteArray := s.toUTF8.data.toList

/-- The runtime decodes what is encoded in UTF-8. -/
def Runtime.DecodesUtf8 (rt : Runtime) : Prop := ∀ text, rt.fromUtf8 (toUtf8 text) = text

theorem decodesUtf8_zeroRuntime : zeroRuntime.DecodesUtf8 := fun text => by
  have hbytes : (⟨text.toUTF8.data.toList.toArray⟩ : ByteArray) = text.toUTF8 := by
    rw [Array.toArray_toList]
  simp only [zeroRuntime, toUtf8, hbytes, String.fromUTF8?]
  split_ifs with hvalid
  · rfl
  · exact absurd text.isValidUTF8 hvalid

/-- No text but the empty one has no bytes. -/
theorem toUtf8_ne_nil {rt : Runtime} (hrt : rt.DecodesUtf8) {text : String} (hne : text ≠ "") :
    toUtf8 text ≠ [] := fun h => hne (by rw [← hrt text, h, ← hrt ""]; rfl)

/-! ## Objects -/

/-- `class AdObject`. -/
structure AdObject where
  dn : String
  attributesData : QHash String (List QByteArray)
  deriving DecidableEq

namespace AdObject

/-- `AdObject::AdObject`. -/
def empty : AdObject := ⟨"", []⟩

/-- `AdObject::is_empty`. -/
def isEmpty (object : AdObject) : Bool := object.attributesData.isEmpty

variable (object : AdObject)

/-- `AdObject::get_values`. -/
def getValues (attr : String) : List QByteArray := object.attributesData.value attr []

/-- `AdObject::get_value`. -/
def getValue (attr : String) : QByteArray := (object.getValues attr).headD []

/-- `AdObject::get_strings`. -/
def getStrings (rt : Runtime) (attr : String) : List String :=
  (object.getValues attr).map rt.fromUtf8

/-- `AdObject::get_string`: the last object class, which is the most derived one, or else
    the first value. -/
def getString (rt : Runtime) (attr : String) : String :=
  if attr = "objectClass" then (object.getStrings rt attr).getLastD ""
  else (object.getStrings rt attr).headD ""

/-- `AdObject::get_bool`. -/
def getBool (rt : Runtime) (attr : String) : Bool :=
  ((object.getStrings rt attr).map (· == "TRUE")).headD false

@[simp] theorem getValues_empty (attr : String) : empty.getValues attr = [] := rfl

@[simp] theorem getValue_empty (attr : String) : empty.getValue attr = [] := rfl

end AdObject

/-! ## Requests -/

/-- The result codes of a request that are told apart. -/
inductive LdapResult
  | success
  | notAllowedOnNonleaf
  | failure
  deriving DecidableEq, Repr

/-- `enum SearchScope`. -/
inductive SearchScope
  | object
  | children
  | descendants
  | all
  deriving DecidableEq, Repr

/-- What is asked for in a search: all attributes if none are named. -/
structure SearchRequest where
  base : String
  scope : SearchScope
  filter : String
  attributes : List String
  getSacl : Bool
  deriving DecidableEq

/-- The outcome of `search_paged_internal` on one page: a failure at any step of it, or
    the entries of the page, by their DN, and whether there are more pages. -/
inductive PageAnswer
  | failure
  | page (entries : List (String × QHash String (List QByteArray))) (morePages : Bool)

/-- The LDAP library and the server behind it. The searches are answered page by page,
    up to a failure or the last page. -/
structure Ldap (σ : Type) where
  search : σ → SearchRequest → σ × List PageAnswer
  createSdControl : σ → LdapResult
  createTreeDeleteControl : σ → LdapResult
  /-- Replaces the values of an attribute, given its object's DN and whether the control
      for security descriptors goes with the request. -/
  modifyReplace : σ → (dn attr : String) → List QByteArray → (sdControl : Bool) → σ × LdapResult
  /-- Deletes an object, given whether the tree delete control goes with the request. -/
  delete : σ → (dn : String) → (treeDelete : Bool) → σ × LdapResult

/-! ## Searches -/

/-- The loop of `AdInterface::search`, from the results so far: a page that fails clears
    them. -/
def searchResultsFrom (results : QHash String AdObject) : List PageAnswer → QHash String AdObject
  | [] => []
  | .failure :: _ => []
  | .page entries morePages :: answers =>
    let results := entries.foldl (fun results entry =>
      results.insert entry.1 ⟨entry.1, entry.2⟩) results
    if morePages then searchResultsFrom results answers else results

/-- The results of a search, from the answers to its requests. -/
def searchResults (answers : List PageAnswer) : QHash String AdObject :=
  searchResultsFrom [] answers

variable {σ : Type} (ldap : Ldap σ)

/-- `AdInterface::search`. -/
def adSearch (s : σ) (base : String) (scope : SearchScope) (filter : String)
    (attributes : List String) (getSacl : Bool) : σ × QHash String AdObject :=
  let answer := ldap.search s ⟨base, scope, filter, attributes, getSacl⟩
  (answer.1, searchResults answer.2)

/-- `AdInterface::search_object`: the result is looked up by the DN as it is spelled. -/
def adSearchObject (s : σ) (dn : String) (attributes : List String) (getSacl : Bool) :
    σ × AdObject :=
  let answer := adSearch ldap s dn .object "" attributes getSacl
  (answer.1, answer.2.value dn .empty)

/-! ## The keys of the results -/

section
variable {hash : QHash String AdObject} {answers : List PageAnswer}

/-- The results are named as the entries of the pages are. -/
theorem mem_keys_searchResultsFrom {P : String → Prop}
    (hanswers : ∀ entries morePages, .page entries morePages ∈ answers →
      ∀ entry ∈ entries, P entry.1) (hhash : ∀ key ∈ hash.keys, P key) :
    ∀ key ∈ (searchResultsFrom hash answers).keys, P key := by
  induction answers generalizing hash with
  | nil => exact fun _ h => absurd h List.not_mem_nil
  | cons answer answers ih =>
    cases answer with
    | failure => exact fun _ h => absurd h List.not_mem_nil
    | page entries morePages =>
      have hentries := hanswers entries morePages List.mem_cons_self
      have hpage : ∀ key ∈ QHash.keys (entries.foldl (fun (results : QHash String AdObject) entry =>
          results.insert entry.1 ⟨entry.1, entry.2⟩) hash), P key := by
        clear hanswers ih
        induction entries generalizing hash with
        | nil => exact hhash
        | cons entry entries ih =>
          refine ih (fun key hkey => ?_) fun entry' h => hentries entry' (List.mem_cons_of_mem _ h)
          rcases QHash.mem_keys_insert.1 hkey with rfl | hkey
          · exact hentries entry List.mem_cons_self
          · exact hhash key hkey
      simp only [searchResultsFrom]
      split_ifs
      · exact ih (fun es m h => hanswers es m (List.mem_cons_of_mem _ h)) hpage
      · exact hpage

theorem mem_keys_searchResults {P : String → Prop}
    (hanswers : ∀ entries morePages, .page entries morePages ∈ answers →
      ∀ entry ∈ entries, P entry.1) : ∀ key ∈ (searchResults answers).keys, P key :=
  mem_keys_searchResultsFrom hanswers fun _ h => absurd h List.not_mem_nil

/-- What holds of the entries of the pages, and of an object that is not found, holds of what
    is looked up in the results. -/
theorem value_searchResultsFrom {P : AdObject → Prop} (hempty : P .empty)
    (hanswers : ∀ entries morePages, .page entries morePages ∈ answers →
      ∀ entry ∈ entries, P ⟨entry.1, entry.2⟩)
    (hhash : ∀ key, P (hash.value key .empty)) (key : String) :
    P ((searchResultsFrom hash answers).value key .empty) := by
  induction answers generalizing hash with
  | nil => exact hempty
  | cons answer answers ih =>
    cases answer with
    | failure => exact hempty
    | page entries morePages =>
      have hentries := hanswers entries morePages List.mem_cons_self
      have hpage : ∀ key, P (QHash.value (entries.foldl (fun (results : QHash String AdObject)
          entry => results.insert entry.1 ⟨entry.1, entry.2⟩) hash) key .empty) := by
        clear hanswers ih
        induction entries generalizing hash with
        | nil => exact hhash
        | cons entry entries ih =>
          refine ih (fun key => ?_) fun entry' h => hentries entry' (List.mem_cons_of_mem _ h)
          rw [QHash.value_insert]
          split_ifs
          · exact hentries entry List.mem_cons_self
          · exact hhash key
      simp only [searchResultsFrom]
      split_ifs
      · exact ih (fun es m h => hanswers es m (List.mem_cons_of_mem _ h)) hpage
      · exact hpage key

theorem value_searchResults {P : AdObject → Prop} (hempty : P .empty)
    (hanswers : ∀ entries morePages, .page entries morePages ∈ answers →
      ∀ entry ∈ entries, P ⟨entry.1, entry.2⟩) (key : String) :
    P ((searchResults answers).value key .empty) :=
  @value_searchResultsFrom [] answers P hempty hanswers (fun _ => hempty) key

end

end Admc
