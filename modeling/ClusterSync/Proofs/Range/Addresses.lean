/-
# How long the addresses of queries are

The limit on a query counts the bytes of its expression as they stand. In the address each byte that
is not unreserved becomes three, so that the address grows by two for each of them
(`size_requestUrl`). Commas are among them. Whatever an expansion asks is short enough as it stands
(`size_le_of_mem_expandQueries`), and whether its address is depends on how many bytes have to be
escaped: with the usual limits there is room for 307 of them, next to a base of 64 bytes. An
expression of many short items has far more commas than that (`expand_exceeds_crowd`).
-/

import ClusterSync.Proofs.Range.Asking
import ClusterSync.Proofs.Text.ByteOrder
import ClusterSync.Range.Settings

namespace ClusterSync

/-! ### Bytes -/

theorem toList_loop (bs : ByteArray) (i : Nat) (front : List UInt8) :
    ByteArray.toList.loop bs i front = front.reverse ++ bs.data.toList.drop i := by
  fun_induction ByteArray.toList.loop bs i front with
  | case1 i front hlt ih =>
    have hlength : i < bs.data.toList.length := hlt
    have hget : bs.get! i = bs.data.toList[i] := getElem!_pos bs.data i hlt
    rw [ih, hget, List.drop_eq_getElem_cons hlength, List.reverse_cons, List.append_assoc,
      List.singleton_append]
  | case2 i front hge =>
    rw [List.drop_eq_nil_of_le (Nat.le_of_not_lt hge), List.append_nil]

namespace Text

variable {cs : List Char} {s t : String}

theorem toList_toUTF8 (s : String) : s.toUTF8.toList = bytes s := by
  rw [ByteArray.toList, toList_loop]
  rfl

theorem length_bytes (s : String) : (bytes s).length = size s := rfl

theorem bytes_append (s t : String) : bytes (s ++ t) = bytes s ++ bytes t := by
  rw [bytes_eq, bytes_eq, bytes_eq, String.toList_append, List.flatMap_append]

/-- A text of ASCII characters has as many bytes as characters. -/
theorem size_ofList_of_ascii (h : ∀ c ∈ cs, c.toNat < 128) :
    size (String.ofList cs) = cs.length := by
  induction cs with
  | nil => rfl
  | cons c cs ih =>
    have hc : c.utf8Size = 1 := by
      rw [Char.utf8Size_eq_one_iff, UInt32.le_iff_toNat_le]
      have hlt := h c (List.mem_cons_self ..)
      exact Nat.le_of_lt_succ hlt
    have hrest : (String.ofList cs).utf8ByteSize = cs.length :=
      ih fun d hd => h d (List.mem_cons_of_mem _ hd)
    rw [size, String.ofList_cons, String.utf8ByteSize_append, String.utf8ByteSize_singleton, hc,
      hrest, List.length_cons, Nat.add_comm]

end Text

namespace Range

variable {b : UInt8} {c : Char} {s : String} {parts : List String}

/-! ### Escaped bytes -/

/-- How many bytes of a text have to be escaped in the query part of an address. -/
def escapes (s : String) : Nat := (Text.bytes s).countP fun b => !isUnreserved b

theorem escapes_le_size (s : String) : escapes s ≤ Text.size s := List.countP_le_length

theorem escapes_append (s t : String) : escapes (s ++ t) = escapes s + escapes t := by
  rw [escapes, Text.bytes_append, List.countP_append]
  rfl

/-- What has to be escaped in texts that are joined: each comma as well. -/
theorem escapes_join (h : parts ≠ []) :
    escapes (Text.join "," parts) + 1 = (parts.map fun p => escapes p + 1).sum := by
  induction parts with
  | nil => exact absurd rfl h
  | cons p rest ih =>
    cases rest with
    | nil => simp [Text.join]
    | cons q rest =>
      have hcomma : escapes "," = 1 := by decide +kernel
      have hjoin : escapes (Text.join "," (p :: q :: rest)) =
          escapes p + 1 + escapes (Text.join "," (q :: rest)) := by
        simp only [Text.join, String.intercalate_cons_cons, escapes_append, hcomma]
      rw [List.map_cons, List.sum_cons, ← ih (List.cons_ne_nil q rest), hjoin]
      omega

theorem hexDigit_ascii : ∀ n < 16, (hexDigit n).toNat < 128 := by decide

theorem ofNat_ascii : ∀ n < 128, (Char.ofNat n).toNat < 128 := by decide

theorem lt_of_isUnreserved (h : isUnreserved b = true) : b.toNat < 128 := by
  simp [isUnreserved] at h
  omega

theorem percentByte_ascii (h : c ∈ percentByte b) : c.toNat < 128 := by
  rw [percentByte] at h
  split at h
  · next hplain =>
    rw [List.mem_singleton.1 h]
    exact ofNat_ascii _ (lt_of_isUnreserved hplain)
  · have hb : b.toNat < 256 := b.toNat_lt
    simp only [List.mem_cons, List.not_mem_nil, or_false] at h
    rcases h with rfl | rfl | rfl
    · decide
    · exact hexDigit_ascii _ (by omega)
    · exact hexDigit_ascii _ (by omega)

theorem length_percentByte (b : UInt8) :
    (percentByte b).length = 1 + 2 * if isUnreserved b then 0 else 1 := by
  rw [percentByte]
  split <;> simp_all

/-- **Each byte that has to be escaped takes up two more.** -/
theorem size_percentEncode (s : String) :
    Text.size (percentEncode s) = Text.size s + 2 * escapes s := by
  have hascii : ∀ c ∈ (Text.bytes s).flatMap percentByte, c.toNat < 128 := by
    intro c hc
    obtain ⟨b, -, hb⟩ := List.mem_flatMap.1 hc
    exact percentByte_ascii hb
  rw [percentEncode, Text.toList_toUTF8, Text.size_ofList_of_ascii hascii, ← Text.length_bytes,
    escapes]
  induction Text.bytes s with
  | nil => rfl
  | cons b bs ih =>
    rw [List.flatMap_cons, List.length_append, length_percentByte, ih, List.length_cons,
      List.countP_cons]
    cases isUnreserved b <;> simp <;> omega

/-! ### Addresses -/

/-- Only slashes are lost, at the end. -/
theorem exists_eq_dropSlashes_append (base : String) :
    ∃ slashes, base = dropSlashes base ++ slashes ∧ ∀ c ∈ slashes.toList, c = '/' := by
  refine ⟨String.ofList (base.toList.reverse.takeWhile (· == '/')).reverse, ?_, fun c hc => ?_⟩
  · rw [dropSlashes, ← String.ofList_append, Text.dropEndWhile, ← List.reverse_append,
      List.takeWhile_append_dropWhile, List.reverse_reverse, String.ofList_toList]
  · rw [String.toList_ofList, List.mem_reverse] at hc
    simpa using List.all_eq_true.1 List.all_takeWhile c hc

theorem size_dropSlashes_le (base : String) : Text.size (dropSlashes base) ≤ Text.size base := by
  obtain ⟨slashes, hbase, -⟩ := exists_eq_dropSlashes_append base
  have hsize := congrArg Text.size hbase
  simp only [Text.size, String.utf8ByteSize_append] at hsize ⊢
  omega

theorem size_requestUrl (base expr : String) : Text.size (requestUrl base expr .list) =
    Text.size (dropSlashes base) + 12 + Text.size expr + 2 * escapes expr := by
  have hpath : Mode.list.path.utf8ByteSize + "?".utf8ByteSize = 12 := by decide +kernel
  have hencoded : (percentEncode expr).utf8ByteSize = Text.size expr + 2 * escapes expr :=
    size_percentEncode expr
  simp only [requestUrl, Text.size, String.utf8ByteSize_append, hencoded]
  omega

/-! ### What an expansion asks -/

variable {server : Server} {limits : Limits} {e : Expression} {asked queries sent : List Query}
  {q : Query}

/-- The queries of an expansion, if all of them are answered. -/
def expandQueries (limits : Limits) (e : Expression) : List Query :=
  if e.size ≤ limits.maxChars then [⟨.list, e.text⟩] else chunkQueries limits.maxChars .list e

/-- Where every query is answered, all of them are sent. -/
theorem Asks.eq_of_answers {outcome : Except QueryError (List Reply)}
    (h : Asks server asked queries sent outcome)
    (answers : ∀ asked q, ∃ reply, server asked q = .ok reply) : sent = queries := by
  cases h with
  | all => rfl
  | @upTo before rest q replies err _ _ herr =>
    obtain ⟨reply, hreply⟩ := answers (before.reverse ++ asked) q
    cases hreply.symm.trans herr

theorem expand_asks (server : Server) (limits : Limits) (e : Expression) :
    (server.expand limits e []).2 ⊆ expandQueries limits e := by
  rw [expandQueries]
  split
  · next hsize =>
    rw [Server.expand_of_size_le hsize]
    exact List.Subset.refl _
  · next hsize =>
    rw [Server.expand_of_lt_size (Nat.not_le.1 hsize)]
    obtain ⟨sent, hasks, hafter⟩ := exists_asks_askChunks server limits .list e []
    rw [List.append_nil] at hafter
    intro q hq
    rw [hafter, List.mem_reverse] at hq
    exact hasks.subset hq

theorem expandQueries_subset (answers : ∀ asked q, ∃ reply, server asked q = .ok reply) :
    expandQueries limits e ⊆ (server.expand limits e []).2 := by
  rw [expandQueries]
  split
  · next hsize =>
    rw [Server.expand_of_size_le hsize]
    exact List.Subset.refl _
  · next hsize =>
    rw [Server.expand_of_lt_size (Nat.not_le.1 hsize)]
    obtain ⟨sent, hasks, hafter⟩ := exists_asks_askChunks server limits .list e []
    obtain rfl := hasks.eq_of_answers answers
    rw [List.append_nil] at hafter
    intro q hq
    rw [hafter, List.mem_reverse]
    exact hq

theorem mode_of_mem_expandQueries (h : q ∈ expandQueries limits e) : q.mode = .list := by
  rw [expandQueries] at h
  split at h
  · rw [List.mem_singleton.1 h]
  · exact (isChunkText_of_mem_chunkQueries h).1

/-- **Nothing that is asked is longer than the limit**, if no item is. -/
theorem size_le_of_mem_expandQueries
    (short : ∀ item ∈ e.items, Text.size item ≤ limits.maxChars)
    (h : q ∈ expandQueries limits e) : Text.size q.expr ≤ limits.maxChars := by
  rw [expandQueries] at h
  split at h
  · next hsize =>
    rw [List.mem_singleton.1 h]
    exact hsize
  · obtain ⟨chunk, hchunk, rfl⟩ := List.mem_map.1 h
    have hc := Expression.isChunk_of_mem_chunks hchunk
    rcases hc.fits with hle | ⟨item, rfl⟩
    · have hjoin := Expression.size_join_eq_weight hc.ne_nil
      show Text.size (Text.join "," chunk) ≤ limits.maxChars
      omega
    · have hjoin : Text.join "," [item] = item := String.intercalate_singleton
      show Text.size (Text.join "," [item]) ≤ limits.maxChars
      rw [hjoin]
      exact short item (Expression.exists_mem_chunks_iff.1
        ⟨_, hchunk, List.mem_singleton_self item⟩)

/-- A base address of 64 bytes. -/
def longBase : String := String.ofList (List.replicate 64 'h')

theorem size_longBase : Text.size longBase = 64 ∧ Text.size (dropSlashes longBase) = 64 := by
  have hdrop : dropSlashes longBase = longBase := by decide +kernel
  have hsize : Text.size longBase = 64 := by decide +kernel
  exact ⟨hsize, hdrop ▸ hsize⟩

theorem exists_reply_ofWeb (base : String) (asked : List Query) (q : Query) :
    ∃ reply, Server.ofWeb (fun _ => .ok {}) base asked q = .ok reply := by
  obtain ⟨mode, expr⟩ := q
  cases mode <;> exact ⟨_, rfl⟩

/-- **How long the addresses of an expansion are.** With the usual limits, no expression that is
asked has more than 7500 bytes, as long as no item takes up more than 1000 when it is encoded. Its
address has two more for each byte that has to be escaped, so that 307 of them always fit. The
address may become longer than 8190 bytes, next to a base of at most 64: it does not if and only
if every expression that may be asked takes up at most 8114 bytes when it is encoded. -/
theorem expand_addresses (e : Expression)
    (light : ∀ item ∈ e.items, Text.size (percentEncode item) ≤ 1000) :
    (∀ web base, Text.size base ≤ 64 → ∀ q ∈ ((Server.ofWeb web base).expand {} e []).2,
      Text.size q.expr ≤ 7500 ∧
      Text.size (requestUrl base q.expr q.mode) =
        Text.size (dropSlashes base) + 12 + Text.size q.expr + 2 * escapes q.expr ∧
      Text.size (requestUrl base q.expr q.mode) ≤ 22576 ∧
      (escapes q.expr ≤ 307 → Text.size (requestUrl base q.expr q.mode) ≤ 8190)) ∧
    ((∀ web base, Text.size base ≤ 64 → ∀ q ∈ ((Server.ofWeb web base).expand {} e []).2,
      Text.size (requestUrl base q.expr q.mode) ≤ 8190) ↔
        ∀ q ∈ expandQueries {} e, Text.size (percentEncode q.expr) ≤ 8114) := by
  have short : ∀ item ∈ e.items, Text.size item ≤ ({} : Limits).maxChars := by
    intro item hitem
    have hlight := light item hitem
    rw [size_percentEncode] at hlight
    show Text.size item ≤ 7500
    omega
  have haddress : ∀ base, ∀ q ∈ expandQueries {} e, Text.size (requestUrl base q.expr q.mode) =
      Text.size (dropSlashes base) + 12 + Text.size q.expr + 2 * escapes q.expr := by
    intro base q hq
    rw [mode_of_mem_expandQueries hq, size_requestUrl]
  refine ⟨fun web base hbase q hq => ?_, fun h q hq => ?_, fun h web base hbase q hq => ?_⟩
  · have hasked := expand_asks _ _ e hq
    have hsize : Text.size q.expr ≤ 7500 := size_le_of_mem_expandQueries short hasked
    have hdrop := size_dropSlashes_le base
    have hescapes := escapes_le_size q.expr
    rw [haddress base q hasked]
    exact ⟨hsize, rfl, by omega, fun hfew => by omega⟩
  · have hasked : q ∈ ((Server.ofWeb (fun _ => .ok {}) longBase).expand {} e []).2 :=
      expandQueries_subset (exists_reply_ofWeb longBase) hq
    have hle := h _ longBase (Nat.le_of_eq size_longBase.1) q hasked
    rw [haddress longBase q hq, size_longBase.2] at hle
    rw [size_percentEncode]
    omega
  · have hasked := expand_asks _ _ e hq
    have hle := h q hasked
    have hdrop := size_dropSlashes_le base
    rw [size_percentEncode] at hle
    rw [haddress base q hasked]
    omega

/-- Two items, one with a space in it. -/
def twoItems : Expression := ⟨"db1,web 2"⟩

/-- The hypothesis of `expand_addresses` is satisfiable, and the addresses of such an expansion are
short enough. -/
theorem expand_addresses_twoItems :
    (∀ item ∈ twoItems.items, Text.size (percentEncode item) ≤ 1000) ∧
    ∀ web base, Text.size base ≤ 64 →
      ∀ q ∈ ((Server.ofWeb web base).expand {} twoItems []).2,
        Text.size (requestUrl base q.expr q.mode) ≤ 8190 := by
  have light : ∀ item ∈ twoItems.items, Text.size (percentEncode item) ≤ 1000 := by
    have hitems : twoItems.items = ["db1", "web 2"] := by decide +kernel
    simp only [hitems, size_percentEncode]
    decide +kernel
  refine ⟨light, (expand_addresses twoItems light).2.2 fun q hq => ?_⟩
  obtain rfl := List.mem_singleton.1 (hq : q ∈ [⟨.list, twoItems.text⟩])
  rw [size_percentEncode]
  decide +kernel

/-- An expression of so many equal short items. -/
def crowd (n : Nat) : Expression := .ofItems (List.replicate n "ab")

theorem items_crowd (n : Nat) : (crowd n).items = List.replicate n "ab" := by
  have hitem : Expression.IsItem "ab" := ⟨by decide, by decide⟩
  exact Expression.items_ofItems_of_isItem fun item h => (List.eq_of_mem_replicate h) ▸ hitem

theorem size_crowd (n : Nat) : (crowd (n + 1)).size = 3 * n + 2 := by
  have hne : List.replicate (n + 1) "ab" ≠ [] := List.cons_ne_nil _ _
  have hjoin := Text.size_join hne
  have hitem : Text.size "ab" = 2 := by decide
  rw [List.map_replicate, List.sum_replicate_nat, hitem] at hjoin
  exact Nat.succ.inj (hjoin.trans (by omega))

theorem escapes_crowd (n : Nat) : escapes (crowd (n + 1)).text = n := by
  have hne : List.replicate (n + 1) "ab" ≠ [] := List.cons_ne_nil _ _
  have hjoin := escapes_join hne
  have hitem : escapes "ab" = 0 := by decide +kernel
  rw [List.map_replicate, List.sum_replicate_nat, hitem] at hjoin
  exact Nat.succ.inj (hjoin.trans (by omega))

/-- **An expression of many short items fits into one query and not into an address.** -/
theorem expand_exceeds_crowd :
    (∀ item ∈ (crowd 2500).items, Text.size (percentEncode item) ≤ 1000) ∧
    Text.size "http://range" ≤ 64 ∧
    ((Server.ofWeb (fun _ => .ok {}) "http://range").expand {} (crowd 2500) []).2 =
      [⟨.list, (crowd 2500).text⟩] ∧
    Text.size (requestUrl "http://range" (crowd 2500).text .list) = 12521 := by
  have hsize : (crowd 2500).size = 7499 := size_crowd 2499
  refine ⟨fun item h => ?_, by decide, ?_, ?_⟩
  · rw [items_crowd] at h
    rw [List.eq_of_mem_replicate h, size_percentEncode]
    decide +kernel
  · rw [Server.expand_of_size_le]
    rw [hsize]
    decide
  · have hbase : Text.size (dropSlashes "http://range") = 12 := by decide +kernel
    have htext : Text.size (crowd 2500).text = 7499 := hsize
    rw [size_requestUrl, hbase, htext, escapes_crowd 2499]

end Range
end ClusterSync
