import AlternatorClient.Foundation.Bytes
import AlternatorClient.Foundation.SortedLists

/-! `Url`, with its two notions of identity: `operator==` compares the five
fields, `operator<` the text of `ToString`, which brackets a host that contains
a colon and so prints `::1` and `[::1]` alike. -/
namespace AlternatorClient
open Foundation

structure Url where
  scheme : Bytes := []
  host : Bytes := []
  port : UInt16 := 0
  path : Bytes := []
  query : Bytes := []
  deriving DecidableEq, Repr

def formatHostForAuthority (host : Bytes) : Bytes :=
  if host.contains (byte ':') && (host.isEmpty || host.head? != some (byte '[')) then
    bytes "[" ++ host ++ bytes "]"
  else host

namespace Url

/-- `Empty`. A URL without a host is the sentinel that ends a plan. -/
def empty (u : Url) : Bool := u.host.isEmpty

def authority (u : Url) : Bytes :=
  formatHostForAuthority u.host ++ if u.port ≠ 0 then bytes ":" ++ decimal u.port.toNat else []

def toString (u : Url) : Bytes :=
  if u.host.isEmpty then []
  else u.scheme ++ bytes "://" ++ u.authority ++ u.path ++
    if u.query.isEmpty then [] else bytes "?" ++ u.query

def withPathAndQuery (u : Url) (path : Bytes) (query : Bytes := []) : Url :=
  { u with path := path, query := query }

@[simp] theorem empty_default : (({} : Url).empty) = true := rfl

end Url

/-- `SortAndDedupeNodes`: sorted by `operator<`, deduplicated by `operator==`. -/
def sortAndDedupeNodes (nodes : List Url) : List Url := sortUnique Url.toString nodes

/-- `std::sort(nodes.begin(), nodes.end())`. -/
def sortNodes (nodes : List Url) : List Url := sortOn Url.toString nodes

@[simp] theorem mem_sortAndDedupeNodes {nodes : List Url} {u : Url} :
    u ∈ sortAndDedupeNodes nodes ↔ u ∈ nodes := mem_sortUnique

@[simp] theorem mem_sortNodes {nodes : List Url} {u : Url} : u ∈ sortNodes nodes ↔ u ∈ nodes :=
  mem_sortOn

theorem sortAndDedupeNodes_ne_nil {nodes : List Url} (some : nodes ≠ []) :
    sortAndDedupeNodes nodes ≠ [] := by
  obtain ⟨u, member⟩ := List.exists_mem_of_ne_nil nodes some
  exact List.ne_nil_of_mem (mem_sortAndDedupeNodes.mpr member)

theorem sortAndDedupeNodes_ascending {nodes : List Url} (separated : Separates Url.toString nodes) :
    Ascending Url.toString (sortAndDedupeNodes nodes) := sortUnique_ascending separated

/-- Two spellings of one IPv6 host print alike and compare unequal. -/
theorem toString_not_injective :
    (⟨bytes "http", bytes "::1", 8080, [], []⟩ : Url).toString =
      (⟨bytes "http", bytes "[::1]", 8080, [], []⟩ : Url).toString ∧
    (⟨bytes "http", bytes "::1", 8080, [], []⟩ : Url) ≠
      ⟨bytes "http", bytes "[::1]", 8080, [], []⟩ := by
  decide +kernel

end AlternatorClient
