import JournalCache.Proofs.Offset
import JournalCache.Proofs.SortedMap.Listing

/-!
# A queue as the last item put at each offset

Whether items are put into a queue one by one or staged and put all at once, the queue shows at each
offset the item that was put there last, and nothing ever leaves it. So a queue is known from the
list of the items put into it (`writeAll_eq_ofList`), and everything that it answers can be read off
this list (`Recounts`).
-/

namespace JournalCache

namespace Queue

variable {α : Type}

inductive Write (α : Type) where
  /-- One item is put. -/
  | item (offset : Offset) (item : α)
  /-- Items are staged in a queue of their own, which is then put. -/
  | staged (items : List (Offset × α))

def Write.items : Write α → List (Offset × α)
  | .item o i => [(o, i)]
  | .staged es => es

def write (q : Queue α) : Write α → Queue α
  | .item o i => q.insert o i
  | .staged es => q.putStaged (.ofList es)

def writeAll (q : Queue α) (ws : List (Write α)) : Queue α := ws.foldl write q

/-- All items put into a queue that was made of `init`, in order. -/
def written (init : List (Offset × α)) (ws : List (Write α)) : List (Offset × α) :=
  init ++ ws.flatMap Write.items

/-- Staging the items first makes no difference to putting them one by one. -/
theorem putStaged_ofList (q : Queue α) (es : List (Offset × α)) :
    q.putStaged (.ofList es) = q.insertAll es := by
  refine SortedMap.ext_get? fun o => ?_
  rw [get?_putStaged, SortedMap.get?_ofList, SortedMap.get?_insertAll]

theorem write_eq (q : Queue α) (w : Write α) : write q w = q.insertAll w.items := by
  cases w with
  | item o i => rfl
  | staged es => exact putStaged_ofList q es

theorem writeAll_eq (q : Queue α) (ws : List (Write α)) :
    writeAll q ws = q.insertAll (ws.flatMap Write.items) := by
  induction ws generalizing q with
  | nil => rfl
  | cons w ws ih =>
      rw [List.flatMap_cons, SortedMap.insertAll, List.foldl_append]
      have hstep : writeAll q (w :: ws) = writeAll (write q w) ws := rfl
      rw [hstep, ih, write_eq]
      rfl

theorem writeAll_eq_ofList (init : List (Offset × α)) (ws : List (Write α)) :
    writeAll (.ofList init) ws = .ofList (written init ws) := by
  rw [writeAll_eq]
  exact List.foldl_append.symm

/-! ## The least and the greatest offset -/

theorem head?_writtenKeys (es : List (Offset × α)) :
    (SortedMap.writtenKeys es).head? = (es.map (·.1)).min? := by
  rw [head?_eq_min? (SortedMap.increasing_writtenKeys es)]
  exact min?_congr fun o => SortedMap.mem_writtenKeys es

theorem getLast?_writtenKeys (es : List (Offset × α)) :
    (SortedMap.writtenKeys es).getLast? = (es.map (·.1)).max? := by
  rw [getLast?_eq_max? (SortedMap.increasing_writtenKeys es)]
  exact max?_congr fun o => SortedMap.mem_writtenKeys es

theorem first?_ofList (es : List (Offset × α)) :
    (SortedMap.ofList es).first? = (es.map (·.1)).min?.bind (SortedMap.entryAt? es) := by
  rw [SortedMap.first?_ofList, head?_writtenKeys]

theorem last?_ofList (es : List (Offset × α)) :
    (SortedMap.ofList es).last? = (es.map (·.1)).max?.bind (SortedMap.entryAt? es) := by
  rw [SortedMap.last?_ofList, getLast?_writtenKeys]

theorem page_eq (q : Queue α) (low : Offset) (limit : Nat) :
    q.page low limit = (q.entries.filter fun e => low ≤ e.1).take limit := by
  rw [page, SortedMap.entriesFrom]
  simp only [Std.not_lt]

/-! ## What a queue answers -/

/-- What a queue answers into which the items of `es` were put one after another. -/
structure Recounts (es : List (Offset × α)) (q : Queue α) : Prop where
  increasing : q.keys.Pairwise (· < ·)
  /-- At each offset stands the item that was put there last. -/
  get? : ∀ o, q.get? o = SortedMap.lastWrite? o es
  entries : q.entries = SortedMap.listing es
  keys : q.keys = (es.map (·.1)).dedup.mergeSort
  size : q.size = (es.map (·.1)).dedup.length
  isEmpty : q.isEmpty = es.isEmpty
  first_offset : q.first?.map (·.1) = (es.map (·.1)).min?
  first? : q.first? = (es.map (·.1)).min?.bind (SortedMap.entryAt? es)
  last_offset : q.last?.map (·.1) = (es.map (·.1)).max?
  last? : q.last? = (es.map (·.1)).max?.bind (SortedMap.entryAt? es)
  page : ∀ low limit, q.page low limit =
    ((SortedMap.listing es).filter fun e => low ≤ e.1).take limit

theorem recounts_ofList (es : List (Offset × α)) : Recounts es (.ofList es) where
  increasing := SortedMap.increasing_keys _
  get? := SortedMap.get?_ofList es
  entries := SortedMap.entries_ofList es
  keys := SortedMap.keys_ofList es
  size := SortedMap.size_ofList es
  isEmpty := SortedMap.isEmpty_ofList es
  first_offset := by
    rw [← head?_writtenKeys, ← SortedMap.keys_ofList]
    exact List.head?_map.symm
  first? := first?_ofList es
  last_offset := by
    rw [← getLast?_writtenKeys, ← SortedMap.keys_ofList]
    exact List.getLast?_map.symm
  last? := last?_ofList es
  page := fun low limit => by rw [page_eq, SortedMap.entries_ofList]

/-- No offset ever leaves a queue. -/
theorem mem_keys_writeAll {q : Queue α} {o : Offset} (ho : o ∈ q.keys) (ws : List (Write α)) :
    o ∈ (writeAll q ws).keys := by
  rw [writeAll_eq]
  exact (SortedMap.mem_keys_insertAll _).2 (.inr ho)

theorem write_staged (q : Queue α) (es : List (Offset × α)) :
    write q (.staged es) = writeAll q (es.map fun e => .item e.1 e.2) := by
  have hitems : (es.map fun e => Write.item e.1 e.2).flatMap Write.items = es := by
    rw [List.flatMap_map]
    exact List.flatMap_singleton' es
  rw [write_eq, writeAll_eq, hitems]
  rfl

/-- A queue made of a list and then written to shows the last item put at each offset, staged items
count as if they were put one by one, and no offset leaves the queue. -/
theorem recounts (init : List (Offset × α)) (ws : List (Write α)) :
    let q := writeAll (.ofList init) ws
    Recounts (written init ws) q ∧
      (∀ es, write q (.staged es) = writeAll q (es.map fun e => .item e.1 e.2)) ∧
      ∀ o ∈ q.keys, ∀ more, o ∈ (writeAll q more).keys :=
  ⟨writeAll_eq_ofList init ws ▸ recounts_ofList _, write_staged _, fun _ => mem_keys_writeAll⟩

example : (writeAll (.ofList [(4, 'a'), (2, 'b'), (4, 'c')])
    [.item 2 'd', .staged [(9, 'e'), (9, 'f')]]).entries = [(2, 'd'), (4, 'c'), (9, 'f')] := by
  decide

end Queue

end JournalCache
