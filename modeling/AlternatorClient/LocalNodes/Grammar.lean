import AlternatorClient.LocalNodes
import Mathlib.Data.List.TakeWhile

/-! What `ParseJsonStringArray` accepts: the grammar of its bodies, with the
strings a body stands for. -/
namespace AlternatorClient
open Foundation

namespace LocalNodesGrammar

def Ws (text : Bytes) : Prop := ∀ c ∈ text, isSpace c = true

theorem Ws.append {left right : Bytes} (wsLeft : Ws left) (wsRight : Ws right) :
    Ws (left ++ right) := by
  intro c member
  exact (List.mem_append.mp member).elim (wsLeft c) (wsRight c)

/-- The byte after a backslash, and what the two stand for. -/
inductive Escape : UInt8 → UInt8 → Prop
  | quote : Escape (byte '"') (byte '"')
  | backslash : Escape (byte '\\') (byte '\\')
  | slash : Escape (byte '/') (byte '/')
  | b : Escape (byte 'b') 8
  | f : Escape (byte 'f') 12
  | n : Escape (byte 'n') 10
  | r : Escape (byte 'r') 13
  | t : Escape (byte 't') 9

/-- What stands between two quotes, and the string it spells. -/
inductive Content : Bytes → Bytes → Prop
  | nil : Content [] []
  | plain {c : UInt8} {text value : Bytes} : c ≠ byte '"' → c ≠ byte '\\' → Content text value →
      Content (c :: text) (c :: value)
  | escaped {e c : UInt8} {text value : Bytes} : Escape e c → Content text value →
      Content (byte '\\' :: e :: text) (c :: value)

inductive Str : Bytes → Bytes → Prop
  | quoted {text value : Bytes} : Content text value →
      Str (byte '"' :: text ++ [byte '"']) value

/-- `str (ws ',' ws str)*` -/
inductive Items : Bytes → List Bytes → Prop
  | one {text value : Bytes} : Str text value → Items text [value]
  | more {text value before after rest : Bytes} {values : List Bytes} : Str text value →
      Ws before → Ws after → Items rest values →
      Items (text ++ before ++ byte ',' :: after ++ rest) (value :: values)

inductive Document : Bytes → List Bytes → Prop
  | empty {before inside after : Bytes} : Ws before → Ws inside → Ws after →
      Document (before ++ byte '[' :: inside ++ byte ']' :: after) []
  | items {before left text right after : Bytes} {values : List Bytes} : Ws before → Ws left →
      Items text values → Ws right → Ws after →
      Document (before ++ byte '[' :: left ++ text ++ right ++ byte ']' :: after) values

end LocalNodesGrammar

namespace ParseJsonStringArray
open LocalNodesGrammar

theorem quote_visible : isSpace (byte '"') = false := by decide
theorem comma_visible : isSpace (byte ',') = false := by decide
theorem open_visible : isSpace (byte '[') = false := by decide
theorem close_visible : isSpace (byte ']') = false := by decide

theorem skipWs_append {space : Bytes} (ws : Ws space) (rest : Bytes) :
    skipWs (space ++ rest) = skipWs rest := by
  rw [skipWs, List.dropWhile_append_of_pos ws, skipWs]

theorem skipWs_cons {c : UInt8} (visible : isSpace c = false) (rest : Bytes) :
    skipWs (c :: rest) = c :: rest := by
  rw [skipWs, List.dropWhile_cons_of_neg (by simp [visible])]

theorem skipWs_eq {rest left : Bytes} (skipped : skipWs rest = left) :
    ∃ space, Ws space ∧ rest = space ++ left := by
  refine ⟨rest.takeWhile isSpace, fun c member => List.mem_takeWhile_imp member, ?_⟩
  rw [← skipped, skipWs, List.takeWhile_append_dropWhile]

theorem skipWs_nil_iff {rest : Bytes} : skipWs rest = [] ↔ Ws rest := by
  rw [skipWs, List.dropWhile_eq_nil_iff]
  rfl

theorem expect_ok {ch : UInt8} {rest after : Bytes} (expected : expect ch rest = .ok after) :
    ∃ space, Ws space ∧ rest = space ++ ch :: after := by
  simp only [expect] at expected
  cases skipped : skipWs rest with
  | nil => simp [skipped] at expected
  | cons c left =>
    simp only [skipped] at expected
    split at expected
    · rename_i same
      cases expected
      subst same
      exact skipWs_eq skipped
    · contradiction

theorem expect_of {ch : UInt8} {space : Bytes} (visible : isSpace ch = false) (ws : Ws space)
    (after : Bytes) : expect ch (space ++ ch :: after) = .ok after := by
  rw [expect, skipWs_append ws, skipWs_cons visible]
  exact if_pos rfl

theorem unescape_iff {e c : UInt8} : unescape e = some c ↔ Escape e c := by
  constructor
  · intro known
    simp only [unescape] at known
    split at known
    · rename_i itself
      cases known
      rcases itself with rfl | rfl | rfl
      · exact .quote
      · exact .backslash
      · exact .slash
    · repeat' split at known
      all_goals first | contradiction | (cases known; subst e; constructor)
  · intro escape
    cases escape <;> rfl

theorem stringBody_quote (rest value : Bytes) :
    stringBody (byte '"' :: rest) value = .ok (value, rest) := by
  rw [stringBody.eq_def]
  exact if_pos rfl

theorem stringBody_plain {ch : UInt8} (quote : ch ≠ byte '"') (backslash : ch ≠ byte '\\')
    (rest value : Bytes) : stringBody (ch :: rest) value = stringBody rest (value ++ [ch]) := by
  conv_lhs => rw [stringBody.eq_def]
  simp only [if_neg quote, if_pos backslash]

theorem stringBody_escaped {e c : UInt8} (escape : Escape e c) (rest value : Bytes) :
    stringBody (byte '\\' :: e :: rest) value = stringBody rest (value ++ [c]) := by
  have apart : byte '\\' ≠ byte '"' := by decide
  conv_lhs => rw [stringBody.eq_def]
  simp only [if_neg apart, if_neg (not_not.mpr rfl), unescape_iff.mpr escape]

/-- A string that ended without a quote has nothing after it. -/
theorem stringBody_ok {rest value text after : Bytes}
    (scanned : stringBody rest value = .ok (text, after)) :
    after = [] ∨
      ∃ content spelled, Content content spelled ∧ rest = content ++ byte '"' :: after ∧
        text = value ++ spelled := by
  fun_induction stringBody rest value with
  | case1 value =>
    cases scanned
    exact .inl rfl
  | case2 rest value =>
    cases scanned
    exact .inr ⟨[], [], .nil, by simp, by simp⟩
  | case3 ch rest value quote plain ih =>
    rcases ih scanned with none | ⟨content, spelled, inner, rfl, rfl⟩
    · exact .inl none
    · exact .inr ⟨ch :: content, ch :: spelled, .plain quote plain inner, by simp, by simp⟩
  | case4 => contradiction
  | case5 => contradiction
  | case6 ch value quote plain escaped rest c known ih =>
    rcases ih scanned with none | ⟨content, spelled, inner, rfl, rfl⟩
    · exact .inl none
    · refine .inr ⟨byte '\\' :: escaped :: content, c :: spelled,
        .escaped (unescape_iff.mp known) inner, ?_, by simp⟩
      simp [not_not.mp plain]

theorem stringBody_of {content spelled : Bytes} (inner : Content content spelled)
    (value after : Bytes) :
    stringBody (content ++ byte '"' :: after) value = .ok (value ++ spelled, after) := by
  induction inner generalizing value with
  | nil => simpa using stringBody_quote after value
  | @plain c text spelled quote backslash _ ih =>
    rw [List.cons_append, stringBody_plain quote backslash, ih]
    simp
  | @escaped e c text spelled escape _ ih =>
    rw [List.cons_append, List.cons_append, stringBody_escaped escape, ih]
    simp

/-- The string of one turn with the white space after it. A body that ends
inside the string leaves nothing there, and the loop throws. -/
theorem stringBody_then {rest text after left : Bytes} {c : UInt8}
    (scanned : stringBody rest [] = .ok (text, after)) (more : skipWs after = c :: left) :
    ∃ content space, Content content text ∧ Ws space ∧
      rest = content ++ byte '"' :: (space ++ c :: left) := by
  obtain ⟨space, ws, rfl⟩ := skipWs_eq more
  rcases stringBody_ok scanned with none | ⟨content, spelled, inner, rfl, rfl⟩
  · simp at none
  · exact ⟨content, space, inner, ws, rfl⟩

theorem elements_ok {turns : Nat} {rest after : Bytes} {out values : List Bytes}
    (parsed : elements turns rest out = .ok (values, after)) :
    ∃ left text items right, Ws left ∧ Items text items ∧ Ws right ∧
      rest = left ++ text ++ right ++ byte ']' :: after ∧ values = out ++ items := by
  induction turns generalizing rest out with
  | zero => simp [elements] at parsed
  | succ turns ih =>
    simp only [elements] at parsed
    cases quoted : expect (byte '"') rest with
    | error error => simp [quoted] at parsed
    | ok inside =>
      simp only [quoted] at parsed
      obtain ⟨left, wsLeft, rfl⟩ := expect_ok quoted
      cases scanned : stringBody inside [] with
      | error error => simp [scanned] at parsed
      | ok result =>
        obtain ⟨value, behind⟩ := result
        simp only [scanned] at parsed
        cases skipped : skipWs behind with
        | nil => simp [skipped] at parsed
        | cons c tail =>
          simp only [skipped] at parsed
          obtain ⟨content, space, inner, wsSpace, rfl⟩ := stringBody_then scanned skipped
          split at parsed
          · rename_i close
            cases parsed
            subst close
            exact ⟨left, _, [value], space, wsLeft, .one (.quoted inner), wsSpace, by simp, rfl⟩
          · cases comma : expect (byte ',') (c :: tail) with
            | error error => simp [comma] at parsed
            | ok next =>
              simp only [comma] at parsed
              obtain ⟨left', text, items, right, ws', inner', wsRight, rfl, rfl⟩ := ih parsed
              obtain ⟨gap, wsGap, again⟩ := expect_ok comma
              have between : Ws (space ++ gap) := wsSpace.append wsGap
              refine ⟨left, _, value :: items, right, wsLeft,
                .more (.quoted inner) between ws' inner', wsRight, ?_, by simp⟩
              rw [again]
              simp

theorem items_length_le {text : Bytes} {items : List Bytes} (valid : Items text items) :
    items.length ≤ text.length := by
  induction valid with
  | one string =>
    cases string
    simp
  | more string _ _ _ ih =>
    simp only [List.length_append, List.length_cons]
    omega

theorem elements_of {text : Bytes} {items : List Bytes} (valid : Items text items) {turns : Nat}
    (enough : items.length ≤ turns) {left right : Bytes} (wsLeft : Ws left) (wsRight : Ws right)
    (after : Bytes) (out : List Bytes) :
    elements turns (left ++ text ++ right ++ byte ']' :: after) out = .ok (out ++ items, after) := by
  induction valid generalizing turns left out with
  | @one text value string =>
    obtain ⟨inner⟩ := string
    obtain ⟨turns, rfl⟩ : ∃ n, turns = n + 1 := ⟨turns - 1, by simp at enough; omega⟩
    simp only [elements, List.append_assoc, List.cons_append, List.nil_append,
      expect_of quote_visible wsLeft, stringBody_of inner, skipWs_append wsRight,
      skipWs_cons close_visible, if_true]
  | @more text value before gap rest values string wsBefore wsGap _ ih =>
    obtain ⟨inner⟩ := string
    obtain ⟨turns, rfl⟩ : ∃ n, turns = n + 1 := ⟨turns - 1, by simp at enough; omega⟩
    have apart : byte ',' ≠ byte ']' := by decide
    have comma : ∀ next, expect (byte ',') (byte ',' :: next) = .ok next := by
      intro next
      exact @expect_of _ [] comma_visible (by simp [Ws]) next
    have rest := ih (Nat.le_of_succ_le_succ enough) wsGap (out ++ [value])
    simp only [List.append_assoc, List.cons_append, List.nil_append] at rest ⊢
    simp only [elements, expect_of quote_visible wsLeft, stringBody_of inner,
      skipWs_append wsBefore, skipWs_cons comma_visible,
      if_neg apart, comma, List.nil_append, rest]

theorem finish_ok_iff {out values : List Bytes} {rest : Bytes} :
    finish out rest = .ok values ↔ out = values ∧ Ws rest := by
  rw [finish, ← skipWs_nil_iff]
  split
  · simp_all
  · simp_all

end ParseJsonStringArray

open ParseJsonStringArray LocalNodesGrammar

theorem parseJsonStringArray_ok {body : Bytes} {values : List Bytes}
    (parsed : parseJsonStringArray body = .ok values) : Document body values := by
  simp only [parseJsonStringArray] at parsed
  cases opened : expect (byte '[') body with
  | error error => simp [opened] at parsed
  | ok rest =>
    simp only [opened] at parsed
    obtain ⟨before, wsBefore, rfl⟩ := expect_ok opened
    obtain ⟨space, wsSpace, split⟩ := skipWs_eq (rfl : skipWs rest = skipWs rest)
    split at parsed
    · rename_i close
      obtain ⟨after, same⟩ : ∃ after, skipWs rest = byte ']' :: after := by
        cases skipped : skipWs rest with
        | nil => simp [skipped] at close
        | cons c tail => exact ⟨tail, by simpa [skipped] using close⟩
      rw [same] at parsed split
      obtain ⟨rfl, wsAfter⟩ := finish_ok_iff.mp parsed
      rw [split]
      simpa using Document.empty wsBefore wsSpace wsAfter
    · cases looped : elements (before ++ byte '[' :: rest).length (skipWs rest) [] with
      | error error =>
        simp only [looped] at parsed
        contradiction
      | ok result =>
        obtain ⟨items, after⟩ := result
        simp only [looped] at parsed
        obtain ⟨rfl, wsAfter⟩ := finish_ok_iff.mp parsed
        obtain ⟨left, text, items, right, wsLeft, valid, wsRight, body, rfl⟩ := elements_ok looped
        have inside : Ws (space ++ left) := wsSpace.append wsLeft
        rw [split, body]
        simpa using Document.items wsBefore inside valid wsRight wsAfter

theorem parseJsonStringArray_of {body : Bytes} {values : List Bytes}
    (document : Document body values) : parseJsonStringArray body = .ok values := by
  cases document with
  | @empty before inside after wsBefore wsInside wsAfter =>
    simp only [parseJsonStringArray, List.append_assoc, List.cons_append,
      expect_of open_visible wsBefore, skipWs_append wsInside,
      skipWs_cons close_visible, List.head?_cons, if_true, finish,
      List.tail_cons, skipWs_nil_iff.mpr wsAfter]
  | @items before left text right after values wsBefore wsLeft valid wsRight wsAfter =>
    have quoted : ∃ tail, text = byte '"' :: tail := by
      cases valid with
      | one string =>
        cases string
        exact ⟨_, rfl⟩
      | more string =>
        cases string
        exact ⟨_, rfl⟩
    obtain ⟨tail, rfl⟩ := quoted
    have apart : ¬ (some (byte '"') : Option UInt8) = some (byte ']') := by decide
    have bound := items_length_le valid
    have enough : values.length ≤
        (before ++ byte '[' :: left ++ byte '"' :: tail ++ right ++ byte ']' :: after).length := by
      simp only [List.length_append, List.length_cons] at bound ⊢
      omega
    have loop := @elements_of _ _ valid _ enough [] right (by simp [Ws]) wsRight after []
    simp only [List.append_assoc, List.cons_append, List.nil_append] at loop
    simp only [parseJsonStringArray, List.append_assoc, List.cons_append,
      expect_of open_visible wsBefore, skipWs_append wsLeft,
      skipWs_cons quote_visible, List.head?_cons, if_neg apart,
      loop, finish, skipWs_nil_iff.mpr wsAfter, if_true]

namespace LocalNodesGrammar

/-- A string as a serialiser writes it, only quotes and backslashes escaped. -/
def quoted (value : Bytes) : Bytes :=
  byte '"' :: value.flatMap (fun c => if c = byte '"' ∨ c = byte '\\' then [byte '\\', c] else [c])
    ++ [byte '"']

structure Spaced where
  before : Bytes
  value : Bytes
  after : Bytes

def Spaced.text (item : Spaced) : Bytes := item.before ++ quoted item.value ++ item.after

def serialise (before inside : Bytes) (items : List Spaced) (after : Bytes) : Bytes :=
  before ++ byte '[' :: inside ++ [byte ','].intercalate (items.map Spaced.text) ++
    byte ']' :: after

theorem quoted_str (value : Bytes) : Str (quoted value) value := by
  refine .quoted ?_
  induction value with
  | nil => exact .nil
  | cons c value ih =>
    rw [List.flatMap_cons]
    split
    · rename_i special
      have escape : Escape c c := by
        rcases special with rfl | rfl
        · exact .quote
        · exact .backslash
      exact .escaped escape ih
    · rename_i ordinary
      rw [not_or] at ordinary
      exact .plain ordinary.1 ordinary.2 ih

theorem intercalate_items {first : Spaced} {rest : List Spaced}
    (spaced : ∀ item ∈ first :: rest, Ws item.before ∧ Ws item.after) :
    ∃ text right, Ws right ∧ Items text ((first :: rest).map Spaced.value) ∧
      [byte ','].intercalate ((first :: rest).map Spaced.text) = first.before ++ text ++ right := by
  induction rest generalizing first with
  | nil =>
    exact ⟨quoted first.value, first.after, (spaced first (by simp)).2, .one (quoted_str _),
      by simp [Spaced.text, List.intercalate]⟩
  | cons second rest ih =>
    obtain ⟨text, right, wsRight, valid, joined⟩ :=
      @ih second (fun item member => spaced item (List.mem_cons_of_mem _ member))
    refine ⟨_, right, wsRight, .more (quoted_str first.value) (spaced first (by simp)).2
      (spaced second (by simp)).1 valid, ?_⟩
    rw [List.map_cons, List.map_cons, List.intercalate_cons_cons, ← List.map_cons, joined]
    simp [Spaced.text]

theorem serialise_document {before inside after : Bytes} {items : List Spaced} (wsBefore : Ws before)
    (wsInside : Ws inside) (wsAfter : Ws after)
    (spaced : ∀ item ∈ items, Ws item.before ∧ Ws item.after) :
    Document (serialise before inside items after) (items.map Spaced.value) := by
  cases items with
  | nil => simpa [serialise, List.intercalate] using Document.empty wsBefore wsInside wsAfter
  | cons first rest =>
    obtain ⟨text, right, wsRight, valid, joined⟩ := intercalate_items spaced
    have left : Ws (inside ++ first.before) := wsInside.append (spaced first (by simp)).1
    rw [serialise, joined]
    simpa using Document.items wsBefore left valid wsRight wsAfter

end LocalNodesGrammar
end AlternatorClient
