import SupplyChain.Inventory.LuaScripts

/-!
# Proofs: when a failing script leaves its keys alone

A script that stops before its first write has changed nothing; one that stops after it has, since the
write shows: a stock text minus a positive quantity is another text, and a reservation that was there is
gone.
-/

namespace SupplyChain

/-! ## Counters -/

theorem string2ll_text {text : String} {n : Int} (h : string2ll text = some n) : toString n = text := by
  unfold string2ll at h
  dsimp only at h
  split at h
  · rename_i hrange
    rw [← Option.some.inj h]
    exact hrange.1
  · cases h

theorem toString_injective {m n : Int} (h : toString m = toString n) : m = n := by
  rw [← Decimal.number_toString m, h, Decimal.number_toString]

namespace Keyspace

variable {k k' : Keyspace} {key x text arg : String} {n : Int}

@[simp] theorem entries_put_self (e : Option ValueEntry) : (k.put key e).entries key = e := by
  simp [put]

theorem entries_of_get (h : k.get key = .ok (some text)) :
    ∃ deadline, k.entries key = some ⟨.text text, deadline⟩ := by
  unfold get at h
  split at h
  · cases h
  · rename_i s deadline hentry
    cases h
    exact ⟨deadline, hentry⟩
  · cases h

/-- A decrement that is accepted subtracts an integer from the counter. -/
theorem decrBy_ok (hget : k.get key = .ok (some text)) (h : k.decrBy key arg = .ok k') :
    ∃ v n, string2ll text = some v ∧ string2ll arg = some n ∧
      k' = k.put key (some ⟨.text (toString (v + -n)), (k.entries key).bind ValueEntry.expireAt⟩) := by
  unfold decrBy at h
  cases harg : string2ll arg with
  | none =>
    rw [harg] at h
    cases h
  | some n =>
    rw [harg] at h
    dsimp only at h
    split at h
    · cases h
    · unfold incrDecr counter at h
      rw [hget] at h
      dsimp only at h
      cases hvalue : string2ll text with
      | none =>
        rw [hvalue] at h
        cases h
      | some v =>
        rw [hvalue] at h
        dsimp only [bind, Except.bind] at h
        split at h
        · cases h
        · exact ⟨v, n, rfl, rfl, (Except.ok.inj h).symm⟩

/-- A decrement by something else than zero shows. -/
theorem decrBy_changes (hget : k.get key = .ok (some text)) (h : k.decrBy key arg = .ok k')
    (hne : ∀ n, string2ll arg = some n → n ≠ 0) : k'.entries key ≠ k.entries key := by
  obtain ⟨v, n, hvalue, harg, rfl⟩ := decrBy_ok hget h
  obtain ⟨deadline, hentry⟩ := entries_of_get hget
  rw [entries_put_self, hentry]
  intro heq
  have htext : toString (v + -n) = text := by
    injection heq with heq
    injection heq with heq
    injection heq
  rw [← string2ll_text hvalue] at htext
  have hzero := toString_injective htext
  exact hne n harg (by omega)

theorem now_decrBy (hget : k.get key = .ok (some text)) (h : k.decrBy key arg = .ok k') :
    k'.now = k.now := by
  obtain ⟨v, n, -, -, rfl⟩ := decrBy_ok hget h
  rfl

end Keyspace

/-! ## Runs of scripts -/

namespace LuaScript

variable {α β : Type} {k k' : Keyspace}

@[simp] theorem eval_pure (a : α) : (pure a : LuaScript α).eval k = (k, .ok a) := rfl

@[simp] theorem eval_throw (e : RedisError) : (throw e : LuaScript α).eval k = (k, .error e) := rfl

theorem eval_get : (get : LuaScript Keyspace).eval k = (k, .ok k) := rfl

theorem eval_bind (s : LuaScript α) (f : α → LuaScript β) : (s >>= f).eval k =
    match s.eval k with
    | (k', .ok a) => (f a).eval k'
    | (k', .error e) => (k', .error e) := by
  simp only [eval, ExceptT.run_bind, StateT.run_bind]
  rcases h : StateT.run (ExceptT.run s) k with ⟨e | a, k'⟩ <;> rfl

theorem eval_write (command : Keyspace → Except RedisError Keyspace) : (write command).eval k =
    match command k with
    | .ok k' => (k', .ok ())
    | .error e => (k, .error e) := by
  rw [write, eval_bind, eval_get]
  dsimp only
  cases command k <;> rfl

@[simp] theorem eval_GET (key : String) : (GET (some key)).eval k = (k, k.get key) := by
  rw [GET, arg, pure_bind, eval_bind, eval_get]
  dsimp only
  cases k.get key <;> rfl

@[simp] theorem eval_DEL (key : String) : (DEL (some key)).eval k = (k.del key, .ok ()) := by
  rw [DEL, arg, pure_bind, eval_write]

@[simp] theorem eval_INCRBY (key n : String) : (INCRBY (some key) n).eval k =
    match k.incrBy key n with
    | .ok k' => (k', .ok ())
    | .error e => (k, .error e) := by
  rw [INCRBY, arg, pure_bind, eval_write]

@[simp] theorem eval_DECRBY (key n : String) : (DECRBY (some key) n).eval k =
    match k.decrBy key n with
    | .ok k' => (k', .ok ())
    | .error e => (k, .error e) := by
  rw [DECRBY, arg, pure_bind, eval_write]

theorem eval_SETEX (key value ttl : String) : (SETEX (some key) value (some ttl)).eval k =
    match k.expiry ttl with
    | .ok deadline => (k.put key (some ⟨.text value, some deadline⟩), .ok ())
    | .error e => (k, .error e) := by
  rw [SETEX, arg, arg, pure_bind, pure_bind, eval_write, Keyspace.setEx]
  cases k.expiry ttl <;> rfl

variable {lua : LuaNumbers} {KEYS ARGV : List String}

/-! ### `reserve.lua` -/

theorem reserve_of_not_takes (h : ¬ Takes lua k KEYS ARGV) : ((reserve lua KEYS ARGV).eval k).1 = k := by
  unfold reserve
  dsimp only
  cases hqty : ARGV[0]?.bind lua.tonumber with
  | none => rfl
  | some qty =>
    dsimp only
    cases hpos : lua.le qty lua.zero with
    | true => rfl
    | false =>
      rw [if_neg Bool.false_ne_true, eval_bind]
      cases hkey : KEYS[0]? with
      | none => rfl
      | some stockKey =>
        rw [eval_GET]
        cases hget : k.get stockKey with
        | error e => rfl
        | ok stored =>
          dsimp only
          cases htext : stored.bind lua.tonumber with
          | none => rfl
          | some available =>
            obtain ⟨text, rfl, hnum⟩ := Option.bind_eq_some_iff.mp htext
            dsimp only
            cases hlt : lua.lt available qty with
            | true => rfl
            | false =>
              rw [if_neg Bool.false_ne_true, eval_bind, eval_DECRBY]
              cases hdecr : k.decrBy stockKey (lua.argument qty) with
              | error e => rfl
              | ok k' =>
                exact absurd ⟨stockKey, qty, text, available, k', hkey, hqty, hpos, hget, hnum, hlt, hdecr⟩ h

/-- Once the quantity is taken from the stock, the reservation is what is left to write. -/
theorem reserve_of_takes (hfaithful : lua.Faithful) (h : Takes lua k KEYS ARGV) :
    ∃ k' value reply, k'.now = k.now ∧ (∃ key ∈ KEYS, k'.entries key ≠ k.entries key) ∧
      (reserve lua KEYS ARGV).eval k = LuaScript.eval (do
        SETEX KEYS[1]? value ((ARGV[2]?.bind lua.tonumber).map lua.argument)
        return reply) k' := by
  obtain ⟨stockKey, qty, text, available, k', hkey, hqty, hpos, hget, hnum, hlt, hdecr⟩ := h
  have hne : ∀ n, string2ll (lua.argument qty) = some n → n ≠ 0 := by
    intro n hn hzero
    have hle := (hfaithful qty n hn).mpr (by omega)
    rw [hpos] at hle
    cases hle
  have hchanged := Keyspace.decrBy_changes hget hdecr hne
  refine ⟨k', lua.argument qty, (.OK, lua.reply (lua.sub available qty)), Keyspace.now_decrBy hget hdecr,
    ⟨stockKey, List.mem_of_getElem? hkey, hchanged⟩, ?_⟩
  unfold reserve
  dsimp only
  rw [hqty, hkey]
  dsimp only
  rw [hpos, if_neg Bool.false_ne_true, eval_bind, eval_GET, hget]
  dsimp only [Option.bind_some]
  rw [hnum]
  dsimp only
  rw [hlt, if_neg Bool.false_ne_true, eval_bind, eval_DECRBY, hdecr]

theorem setex_cases (lua : LuaNumbers) (KEYS ARGV : List String) (hnow : k'.now = k.now) (value : String)
    (reply : α) :
    (Expires lua k KEYS ARGV ∧ ∃ k'', LuaScript.eval (do
        SETEX KEYS[1]? value ((ARGV[2]?.bind lua.tonumber).map lua.argument)
        return reply) k' = (k'', .ok reply)) ∨
      ¬ Expires lua k KEYS ARGV ∧ ∃ e, LuaScript.eval (do
        SETEX KEYS[1]? value ((ARGV[2]?.bind lua.tonumber).map lua.argument)
        return reply) k' = (k', .error e) := by
  have hexpiry : ∀ ttl, k'.expiry ttl = k.expiry ttl := by
    intro ttl
    rw [Keyspace.expiry, Keyspace.expiry, hnow]
  rw [eval_bind]
  cases hkey : KEYS[1]? with
  | none =>
    refine Or.inr ⟨?_, _, rfl⟩
    rintro ⟨resvKey, ttl, deadline, hsome, -⟩
    rw [hkey] at hsome
    cases hsome
  | some resvKey =>
    cases httl : ARGV[2]?.bind lua.tonumber with
    | none =>
      refine Or.inr ⟨?_, _, rfl⟩
      rintro ⟨resvKey, ttl, deadline, -, hsome, -⟩
      rw [httl] at hsome
      cases hsome
    | some ttl =>
      rw [Option.map_some, eval_SETEX, hexpiry]
      cases hdeadline : k.expiry (lua.argument ttl) with
      | ok deadline => exact Or.inl ⟨⟨resvKey, ttl, deadline, hkey, httl, hdeadline⟩, _, rfl⟩
      | error e =>
        refine Or.inr ⟨?_, e, rfl⟩
        rintro ⟨resvKey', ttl', deadline, -, hsome, hok⟩
        rw [httl] at hsome
        cases hsome
        rw [hdeadline] at hok
        cases hok

theorem reserve_atomic_iff (hfaithful : lua.Faithful) :
    (reserve lua KEYS ARGV).Atomic KEYS k ↔ (Takes lua k KEYS ARGV → Expires lua k KEYS ARGV) := by
  constructor
  · intro hatomic htakes
    obtain ⟨k', value, reply, hnow, ⟨key, hmem, hchanged⟩, heval⟩ := reserve_of_takes hfaithful htakes
    rcases setex_cases lua KEYS ARGV hnow value reply with ⟨hexpires, -⟩ | ⟨-, e, hfail⟩
    · exact hexpires
    · rw [hfail] at heval
      have hsame := hatomic e (congrArg Prod.snd heval) key hmem
      rw [heval] at hsame
      exact absurd hsame hchanged
  · intro h e herror key hmem
    by_cases htakes : Takes lua k KEYS ARGV
    · obtain ⟨k', value, reply, hnow, -, heval⟩ := reserve_of_takes hfaithful htakes
      rcases setex_cases lua KEYS ARGV hnow value reply with ⟨-, k'', hok⟩ | ⟨hnot, -⟩
      · rw [heval, hok] at herror
        cases herror
      · exact absurd (h htakes) hnot
    · rw [reserve_of_not_takes htakes]

/-! ### `release.lua` -/

theorem release_of_not_finds (h : ∀ resvKey qty, ¬ Finds lua k KEYS resvKey qty) :
    ((release lua KEYS ARGV).eval k).1 = k := by
  unfold release
  dsimp only
  rw [eval_bind]
  cases hkey : KEYS[1]? with
  | none => rfl
  | some resvKey =>
    rw [eval_GET]
    cases hget : k.get resvKey with
    | error e => rfl
    | ok stored =>
      dsimp only
      cases htext : stored.bind lua.tonumber with
      | none => rfl
      | some qty =>
        obtain ⟨text, rfl, hnum⟩ := Option.bind_eq_some_iff.mp htext
        exact absurd ⟨hkey, text, hget, hnum⟩ (h resvKey qty)

/-- A reservation that is found is resolved, or it is gone all the same. -/
theorem release_of_finds (ARGV : List String) {resvKey : String} {qty : lua.Num}
    (h : Finds lua k KEYS resvKey qty) :
    (Resolves lua k KEYS ARGV resvKey qty ∧ ∃ k' reply, (release lua KEYS ARGV).eval k = (k', .ok reply)) ∨
      ¬ Resolves lua k KEYS ARGV resvKey qty ∧
        ∃ e, (release lua KEYS ARGV).eval k = (k.del resvKey, .error e) := by
  obtain ⟨hkey, text, hget, hnum⟩ := h
  have hneq : some "COMMIT" ≠ some "RELEASE" := by decide
  unfold release
  dsimp only
  rw [eval_bind, hkey, eval_GET, hget]
  dsimp only [Option.bind_some]
  rw [hnum]
  dsimp only
  rw [eval_bind, eval_DEL]
  dsimp only
  by_cases hrelease : ARGV[0]? = some "RELEASE"
  · rw [if_pos hrelease, eval_bind]
    have hstuck : (∀ stockKey k', KEYS[0]? = some stockKey →
        (k.del resvKey).incrBy stockKey (lua.argument qty) ≠ .ok k') →
        ¬ Resolves lua k KEYS ARGV resvKey qty := by
      rintro hno (hcommit | ⟨-, stockKey, k', hstock, hok⟩)
      · rw [hrelease] at hcommit
        exact hneq hcommit.symm
      · exact hno stockKey k' hstock hok
    cases hstock : KEYS[0]? with
    | none => exact Or.inr ⟨hstuck fun stockKey k' hsome => (by rw [hstock] at hsome; cases hsome), _, rfl⟩
    | some stockKey =>
      rw [eval_INCRBY]
      cases hincr : (k.del resvKey).incrBy stockKey (lua.argument qty) with
      | ok k' => exact Or.inl ⟨Or.inr ⟨hrelease, stockKey, k', hstock, hincr⟩, _, _, rfl⟩
      | error e =>
        refine Or.inr ⟨hstuck ?_, e, rfl⟩
        intro stockKey' k' hsome hok
        rw [hstock] at hsome
        cases hsome
        rw [hincr] at hok
        cases hok
  · rw [if_neg hrelease]
    by_cases hcommit : ARGV[0]? = some "COMMIT"
    · rw [if_pos hcommit]
      exact Or.inl ⟨Or.inl hcommit, _, _, rfl⟩
    · rw [if_neg hcommit]
      refine Or.inr ⟨?_, _, rfl⟩
      rintro (hmode | ⟨hmode, -⟩)
      · exact hcommit hmode
      · exact hrelease hmode

theorem release_atomic_iff :
    (release lua KEYS ARGV).Atomic KEYS k ↔ Resolvable lua k KEYS ARGV := by
  constructor
  · intro hatomic resvKey qty hfinds
    rcases release_of_finds ARGV hfinds with ⟨hresolves, -⟩ | ⟨-, e, hfail⟩
    · exact hresolves
    · obtain ⟨hkey, text, hget, -⟩ := hfinds
      obtain ⟨deadline, hentry⟩ := Keyspace.entries_of_get hget
      have hsame := hatomic e (congrArg Prod.snd hfail) resvKey (List.mem_of_getElem? hkey)
      rw [hfail, Keyspace.del, Keyspace.entries_put_self, hentry] at hsame
      cases hsame
  · intro h e herror key hmem
    by_cases hfinds : ∃ resvKey qty, Finds lua k KEYS resvKey qty
    · obtain ⟨resvKey, qty, hfinds⟩ := hfinds
      rcases release_of_finds ARGV hfinds with ⟨-, k', reply, hok⟩ | ⟨hnot, -⟩
      · rw [hok] at herror
        cases herror
      · exact absurd (h resvKey qty hfinds) hnot
    · rw [release_of_not_finds fun resvKey qty hf => hfinds ⟨resvKey, qty, hf⟩]

end LuaScript

/-! ## The in-process stand-in -/

namespace JsRedisClient

variable {js : JsNumbers} {c : JsRedisClient js} {keys : List String} {args : List (String ⊕ js.Num)}

/-- `evalReserve` throws before it writes. -/
theorem evalReserve_of_error {e : RedisError} (h : (c.evalReserve keys args).2 = .error e) :
    (c.evalReserve keys args).1 = c := by
  unfold evalReserve at h ⊢
  dsimp only at h ⊢
  split at h
  · rw [if_pos ‹_›]
  · split at h
    · cases h
    · split at h <;> cases h

theorem evalReserve_atomic : Atomic (c.evalReserve keys args) keys c := by
  intro e herror key hkey
  rw [evalReserve_of_error herror]
  exact ⟨rfl, rfl⟩

theorem isLive_true {key : Option String} (h : (c.isLive key).2 = true) :
    (c.isLive key).1 = c ∧ (c.store key).isSome := by
  unfold isLive at h ⊢
  split at h
  · split at h
    · cases h
    · rw [if_neg ‹_›]
      exact ⟨rfl, h⟩
  · exact ⟨rfl, h⟩

/-- `evalRelease` throws after it has deleted the reservation. -/
theorem evalRelease_cases (c : JsRedisClient js) (keys : List String) (args : List (String ⊕ js.Num)) :
    (c.Resolvable keys args ∧ ∃ c' reply, c.evalRelease keys args = (c', .ok reply)) ∨
      ¬ c.Resolvable keys args ∧ (c.store keys[1]?).isSome ∧
        c.evalRelease keys args = (c.delete keys[1]?, .error .INVALID_MODE) := by
  unfold evalRelease Resolvable
  cases hlive : (c.isLive keys[1]?).2 with
  | false =>
    refine Or.inl ⟨nofun, (c.isLive keys[1]?).1, (.ALREADY_RESOLVED, js.ofInt 0), ?_⟩
    dsimp only
    rw [hlive]
    rfl
  | true =>
    obtain ⟨hsame, hsome⟩ := isLive_true hlive
    dsimp only
    rw [hlive, hsame]
    by_cases hrelease : js.toString args[0]? = "RELEASE"
    · exact Or.inl ⟨fun _ => Or.inl hrelease, _, _, by rw [if_pos hrelease]; rfl⟩
    · by_cases hcommit : js.toString args[0]? = "COMMIT"
      · exact Or.inl ⟨fun _ => Or.inr hcommit, _, _, by rw [if_neg hrelease, if_pos hcommit]; rfl⟩
      · refine Or.inr ⟨fun h => (h rfl).elim hrelease hcommit, hsome, ?_⟩
        rw [if_neg hrelease, if_neg hcommit]
        rfl

theorem evalRelease_atomic_iff :
    Atomic (c.evalRelease keys args) keys c ↔ c.Resolvable keys args := by
  rcases evalRelease_cases c keys args with
    ⟨hresolvable, c', reply, hok⟩ | ⟨hnot, hsome, hfail⟩
  · refine iff_of_true ?_ hresolvable
    intro e herror
    rw [hok] at herror
    cases herror
  · refine iff_of_false ?_ hnot
    intro hatomic
    have hsame := (hatomic .INVALID_MODE (congrArg Prod.snd hfail) keys[1]? (by simp)).1
    rw [hfail] at hsame
    simp only [delete, if_true] at hsame
    rw [← hsame] at hsome
    cases hsome

end JsRedisClient

/-- Exactly when a script that fails has changed nothing. `reserve.lua` must not fail once it has taken
the quantity from the stock, and `release.lua` must not fail once it has found the reservation; in the
stand-in only an unknown mode for a live reservation fails too late. -/
theorem scripts_atomic_iff {lua : LuaNumbers} (hfaithful : lua.Faithful) (k : Keyspace)
    (KEYS ARGV : List String) {js : JsNumbers} (c : JsRedisClient js) (args : List (String ⊕ js.Num)) :
    ((LuaScript.reserve lua KEYS ARGV).Atomic KEYS k ↔
      (LuaScript.Takes lua k KEYS ARGV → LuaScript.Expires lua k KEYS ARGV)) ∧
    ((LuaScript.release lua KEYS ARGV).Atomic KEYS k ↔ LuaScript.Resolvable lua k KEYS ARGV) ∧
    JsRedisClient.Atomic (c.evalReserve KEYS args) KEYS c ∧
    (JsRedisClient.Atomic (c.evalRelease KEYS args) KEYS c ↔ c.Resolvable KEYS args) :=
  ⟨LuaScript.reserve_atomic_iff hfaithful, LuaScript.release_atomic_iff,
    JsRedisClient.evalReserve_atomic, JsRedisClient.evalRelease_atomic_iff⟩

theorem integers_faithful : LuaNumbers.integers.Faithful := by
  intro x n hx
  have hx : x = n := toString_injective (string2ll_text hx).symm
  subst hx
  simp [LuaNumbers.integers]

/-- A stock of five, with a reservation of two that is live until the time 100. -/
def smallShop : Keyspace where
  entries key :=
    if key = "stock:W1:WIDGET" then some ⟨.text "5", none⟩
    else if key = "resv:r1" then some ⟨.text "2", some 100⟩
    else none
  now := 10

/-- A stand-in with five units in stock and a reservation of two. -/
def smallShopInMemory : JsRedisClient .integers where
  store key :=
    if key = some "stock:W1:WIDGET" then some "5"
    else if key = some "resv:r1" then some "2"
    else none
  expiresAt key := if key = some "resv:r1" then some (some 100) else none
  now := 10

/-- With a time to live that `SET` accepts, a reservation fails without a trace if it fails. -/
theorem quarterHour_atomic :
    (LuaScript.reserve .integers ["stock:W1:WIDGET", "resv:r2"] ["2", "r2", "900"]).Atomic
        ["stock:W1:WIDGET", "resv:r2"] smallShop ∧
      JsRedisClient.Atomic (smallShopInMemory.evalRelease ["stock:W1:WIDGET", "resv:r1"] [.inl "COMMIT"])
        ["stock:W1:WIDGET", "resv:r1"] smallShopInMemory := by
  constructor
  · refine (scripts_atomic_iff integers_faithful smallShop ["stock:W1:WIDGET", "resv:r2"]
      ["2", "r2", "900"] smallShopInMemory []).1.mpr fun _ => ?_
    have httl : string2ll "900" = some 900 := by decide +kernel
    exact ⟨"resv:r2", (900 : Int), 900010, rfl, httl, by decide +kernel⟩
  · exact (scripts_atomic_iff integers_faithful smallShop ["stock:W1:WIDGET", "resv:r1"] []
      smallShopInMemory [.inl "COMMIT"]).2.2.2.mpr fun _ => Or.inr rfl

/-- A time to live of zero is refused when the stock is already taken, and an unknown mode when the
reservation is already deleted. -/
theorem refused_after_writing :
    ((LuaScript.reserve .integers ["stock:W1:WIDGET", "resv:r2"] ["2", "r2", "0"]).eval smallShop).2 =
        .error .invalidExpireTime ∧
      (((LuaScript.reserve .integers ["stock:W1:WIDGET", "resv:r2"] ["2", "r2", "0"]).eval
        smallShop).1.entries "stock:W1:WIDGET") = some ⟨.text "3", none⟩ ∧
      ¬ (LuaScript.reserve .integers ["stock:W1:WIDGET", "resv:r2"] ["2", "r2", "0"]).Atomic
        ["stock:W1:WIDGET", "resv:r2"] smallShop ∧
      ¬ (LuaScript.release .integers ["stock:W1:WIDGET", "resv:r1"] ["CANCEL"]).Atomic
        ["stock:W1:WIDGET", "resv:r1"] smallShop ∧
      ¬ JsRedisClient.Atomic (smallShopInMemory.evalRelease ["stock:W1:WIDGET", "resv:r1"] [.inl "CANCEL"])
        ["stock:W1:WIDGET", "resv:r1"] smallShopInMemory := by
  have hreserve : ((LuaScript.reserve .integers ["stock:W1:WIDGET", "resv:r2"] ["2", "r2", "0"]).eval
      smallShop).2 = .error .invalidExpireTime := by decide +kernel
  have hstock : (((LuaScript.reserve .integers ["stock:W1:WIDGET", "resv:r2"] ["2", "r2", "0"]).eval
      smallShop).1.entries "stock:W1:WIDGET") = some ⟨.text "3", none⟩ := by decide +kernel
  refine ⟨hreserve, hstock, ?_, ?_, ?_⟩
  · intro hatomic
    have hsame := hatomic _ hreserve "stock:W1:WIDGET" (by simp)
    rw [hstock] at hsame
    exact absurd hsame (by decide +kernel)
  · intro hatomic
    exact absurd (hatomic .INVALID_MODE (by decide +kernel) "resv:r1" (by simp))
      (by decide +kernel)
  · intro hatomic
    have hsame := (hatomic .INVALID_MODE rfl (some "resv:r1") (by simp)).1
    exact absurd hsame (by decide +kernel)

end SupplyChain
