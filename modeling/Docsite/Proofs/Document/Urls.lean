import Docsite.Document.Kind
import Docsite.Proofs.Tree.Subtrees

/-!
# Docsite.Proofs.Document.Urls

The URLs of the links of a document.

A document falls into two parts: the URLs of its links, in document order (`Node.linkUrls`), and
what is left without them (`Node.unlinked`).  The two parts together are the whole document
(`eq_of_unlinked`), so what an operation on links does is said by what it does to the URLs, and by
the fact that it does nothing to the rest.
-/

namespace Docsite

namespace Document.Branch

/-- The URL of a link. -/
def url? : Branch → Option String
  | link url _ => some url
  | _ => none

/-- The label without its URL, if it has one. -/
def unlinked : Branch → Branch
  | link _ title => link "" title
  | b => b

theorem url?_unlinked (b : Branch) : b.unlinked.url? = b.url?.map fun _ => "" := by
  cases b <;> rfl

/-- Labels that are the same without their URLs differ in their URLs alone. -/
theorem eq_of_unlinked {b c : Branch} (rest : b.unlinked = c.unlinked) (url : b.url? = c.url?) :
    b = c := by
  cases b with
  | link u t =>
    cases c with
    | link v s => simp_all [unlinked, url?]
    | _ => contradiction
  | _ =>
    cases c with
    | link v s => contradiction
    | _ => exact rest

end Document.Branch

namespace Node

open Document Docsite.Tree

/-- The URL of a node that is a link. -/
def url? : Node → Option String
  | .leaf _ => none
  | .branch b _ => b.url?

/-- The URLs of the links in a node, in document order: that of a link before those of the links
in it. -/
def linkUrls (n : Node) : List String := n.subtrees.filterMap url?

/-- The URLs of the links among some nodes and below them, in document order. -/
def linkUrlsAll (ns : List Node) : List String := (subtreesAll ns).filterMap url?

mutual

/-- A node without the URLs of its links. -/
def unlinked : Node → Node
  | .leaf l => .leaf l
  | .branch b kids => .branch b.unlinked (unlinkedAll kids)

/-- Nodes without the URLs of their links. -/
def unlinkedAll : List Node → List Node
  | [] => []
  | n :: ns => unlinked n :: unlinkedAll ns

end

theorem linkUrls_branch (b : Branch) (kids : List Node) :
    linkUrls (.branch b kids) = b.url?.toList ++ linkUrlsAll kids := by
  rw [linkUrls, subtrees, linkUrlsAll]
  cases url : b.url? with
  | none => exact List.filterMap_cons_none url
  | some u => exact List.filterMap_cons_some url

theorem linkUrlsAll_cons (n : Node) (ns : List Node) :
    linkUrlsAll (n :: ns) = linkUrls n ++ linkUrlsAll ns := by
  rw [linkUrlsAll, subtreesAll, List.filterMap_append, linkUrls, linkUrlsAll]

mutual

/-- Without its URLs a document has as many links as before. -/
theorem linkUrls_unlinked : (n : Node) → (unlinked n).linkUrls = n.linkUrls.map fun _ => ""
  | .leaf l => rfl
  | .branch b kids => by
    rw [unlinked, linkUrls_branch, linkUrls_branch, linkUrlsAll_unlinkedAll kids,
      Branch.url?_unlinked, List.map_append, Option.toList_map]

theorem linkUrlsAll_unlinkedAll : (ns : List Node) →
    linkUrlsAll (unlinkedAll ns) = (linkUrlsAll ns).map fun _ => ""
  | [] => rfl
  | n :: ns => by
    rw [unlinkedAll, linkUrlsAll_cons, linkUrlsAll_cons, linkUrls_unlinked n,
      linkUrlsAll_unlinkedAll ns, List.map_append]

end

theorem length_linkUrls_of_unlinked {n m : Node} (rest : n.unlinked = m.unlinked) :
    n.linkUrls.length = m.linkUrls.length := by
  have same := congrArg (List.length ∘ linkUrls) rest
  simpa only [Function.comp_apply, linkUrls_unlinked, List.length_map] using same

mutual

/-- A document is settled by the URLs of its links and what is left without them. -/
theorem eq_of_unlinked : (n m : Node) → n.unlinked = m.unlinked → n.linkUrls = m.linkUrls → n = m
  | .leaf l, .leaf l', rest, _ => by simpa only [unlinked] using rest
  | .leaf l, .branch c kids', rest, _ => by
    simp only [unlinked] at rest
    contradiction
  | .branch b kids, .leaf l', rest, _ => by
    simp only [unlinked] at rest
    contradiction
  | .branch b kids, .branch c kids', rest, urls => by
    simp only [unlinked, Tree.branch.injEq] at rest
    rw [linkUrls_branch, linkUrls_branch] at urls
    have linked : b.url?.isSome = c.url?.isSome := by
      have same := congrArg (Option.isSome ∘ Branch.url?) rest.1
      simpa only [Function.comp_apply, Branch.url?_unlinked, Option.isSome_map] using same
    obtain ⟨here, below⟩ := List.append_inj urls (by
      rw [Option.length_toList, Option.length_toList, linked])
    have url : b.url? = c.url? := by
      have same := congrArg List.head? here
      simpa only [Option.head?_toList] using same
    rw [Branch.eq_of_unlinked rest.1 url, eq_all_of_unlinked kids kids' rest.2 below]

theorem eq_all_of_unlinked : (ns ms : List Node) → unlinkedAll ns = unlinkedAll ms →
    linkUrlsAll ns = linkUrlsAll ms → ns = ms
  | [], [], _, _ => rfl
  | [], m :: ms, rest, _ => by simp only [unlinkedAll] at rest; contradiction
  | n :: ns, [], rest, _ => by simp only [unlinkedAll] at rest; contradiction
  | n :: ns, m :: ms, rest, urls => by
    simp only [unlinkedAll, List.cons.injEq] at rest
    rw [linkUrlsAll_cons, linkUrlsAll_cons] at urls
    obtain ⟨here, below⟩ := List.append_inj urls (length_linkUrls_of_unlinked rest.1)
    rw [eq_of_unlinked n m rest.1 here, eq_all_of_unlinked ns ms rest.2 below]

end

end Node

end Docsite
