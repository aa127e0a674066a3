import Mathlib.Data.List.Infix
import Zaion.Lib.Text
import Zaion.Media.Addresses

/-! The media cache's download: the check of the URL, then up to three attempts of a client
that resolves the host again and follows redirects. DNS and the servers are an environment
that may answer by everything that happened before. -/
namespace Zaion.Media

open Zaion.Lib

inductive Host where
  | ipv4 (ip : Ipv4Addr)
  | ipv6 (ip : Ipv6Addr)
  | domain (name : String)
  deriving DecidableEq

structure Url where
  scheme : String
  host : Option Host
  port : Option UInt16
  path : String
  deriving DecidableEq

/-- The URL library. -/
structure Urls where
  parse : String → Option Url
  join : Url → String → Option Url

def Url.portOrKnownDefault (url : Url) : Option UInt16 :=
  match url.port, url.scheme with
  | some port, _ => some port
  | none, "http" => some 80
  | none, "https" => some 443
  | none, _ => none

inductive Event where
  | asked (name : String)
  | connect (ip : IpAddr)
  | slept (ms : Nat)
  deriving DecidableEq

abbrev Trace := List Event

structure Reply where
  status : Nat
  statusText : String
  location : Option String
  body : Except String (List UInt8)

/-- What DNS answers, which of a host's addresses the client gets to try in which order, and
what the server does; `explain` is the text of a client error. -/
structure Env where
  dns : Trace → String → Option (List IpAddr)
  tries : Trace → List IpAddr → List IpAddr
  respond : Trace → Url → Except String Reply
  explain : Trace → String

/-- `lookup_host`: the resolved socket addresses. -/
def lookupHost (env : Env) (name : String) (port : UInt16) (t : Trace) : Option (List (IpAddr × UInt16)) × Trace :=
  ((env.dns t name).map (fun ips => ips.map (fun ip => (ip, port))), t ++ [.asked name])

/-- Loopback and intranet names, refused before they are resolved. -/
def isIntranetName (name : String) : Bool :=
  let n := toAsciiLowercase name
  let endsWith (suffix : String) := decide (suffix.toList <:+ n.toList)
  n == "localhost" || endsWith ".localhost" || endsWith ".local" || endsWith ".internal" || endsWith ".lan" ||
    endsWith ".intranet" || endsWith ".corp" || endsWith ".home" || endsWith ".arpa"

def isSafeUrl (urls : Urls) (env : Env) (text : String) (t : Trace) : Bool × Trace :=
  match urls.parse text with
  | none => (false, t)
  | some url =>
    if url.scheme = "http" ∨ url.scheme = "https" then
      match url.host with
      | none => (false, t)
      | some (.ipv4 ip) => (isPublicIpv4 ip, t)
      | some (.ipv6 ip) => (isPublicIpv6 ip, t)
      | some (.domain name) =>
        if isIntranetName name then (false, t)
        else match lookupHost env name (url.portOrKnownDefault.getD 80) t with
          | (none, t) => (false, t)
          | (some addrs, t) => (!addrs.isEmpty && addrs.all (fun addr => addr.1.isPublic), t)
    else (false, t)

/-- The client's own resolution of a host. -/
def resolve (env : Env) (host : Host) (t : Trace) : List IpAddr × Trace :=
  match host with
  | .ipv4 ip => ([.v4 ip], t)
  | .ipv6 ip => ([.v6 ip], t)
  | .domain name => ((env.dns t name).getD [], t ++ [.asked name])

/-- The addresses of the host the client tries. -/
def tried (env : Env) (ips : List IpAddr) (t : Trace) : List IpAddr := (env.tries t ips).filter (· ∈ ips)

/-- Where the default policy goes next. -/
def redirectTarget (urls : Urls) (url : Url) (reply : Reply) : Option Url :=
  if reply.status ∈ [301, 302, 303, 307, 308] then reply.location.bind (urls.join url) else none

/-- One request, and what follows a redirect. -/
def hop (urls : Urls) (env : Env) (follow : Url → Trace → Except String Reply × Trace) (url : Url) (t : Trace) :
    Except String Reply × Trace :=
  if url.scheme = "http" ∨ url.scheme = "https" then
    match url.host with
    | none => (.error (env.explain t), t)
    | some host =>
      let (ips, t) := resolve env host t
      let t' := t ++ (tried env ips t).map .connect
      if tried env ips t = [] then (.error (env.explain t), t)
      else match env.respond t' url with
        | .error e => (.error e, t')
        | .ok reply => match redirectTarget urls url reply with
          | none => (.ok reply, t')
          | some next => follow next t'
  else (.error (env.explain t), t)

/-- A request with at most `n` redirects. -/
def send (urls : Urls) (env : Env) : Nat → Url → Trace → Except String Reply × Trace
  | 0 => hop urls env (fun _ t => (.error (env.explain t), t))
  | n + 1 => hop urls env (send urls env n)

def downloadWithTimeout (urls : Urls) (env : Env) (text : String) (t : Trace) :
    Except String (List UInt8) × Trace :=
  match urls.parse text with
  | none => (.error (env.explain t), t)
  | some url => match send urls env 10 url t with
    | (.error e, t) => (.error e, t)
    | (.ok reply, t) =>
      if 200 ≤ reply.status ∧ reply.status < 300 then (reply.body, t)
      else (.error ("HTTP " ++ reply.statusText), t)

/-- The loop over the attempts. -/
def attempts (urls : Urls) (env : Env) (text : String) : List Nat → Trace → Except String (List UInt8) × Trace
  | [], t => (.error "unknown error", t)
  | attempt :: rest, t => match downloadWithTimeout urls env text t with
    | (.ok bytes, t) => (.ok bytes, t)
    | (.error e, t) =>
      if attempt < 2 then attempts urls env text rest (t ++ [.slept (1500 * (attempt + 1))])
      else (.error ("download failed after 3 attempts: " ++ e), t)

def downloadWithRetry (urls : Urls) (env : Env) (text : String) : Except String (List UInt8) × Trace :=
  match isSafeUrl urls env text [] with
  | (false, t) => (.error "URL blocked by SSRF policy (private/reserved/loopback)", t)
  | (true, t) => attempts urls env text [0, 1, 2] t

/-- Everything the client connected to is public. -/
def Contained (t : Trace) : Prop := ∀ ip, .connect ip ∈ t → ip.isPublic = true

/-- What the check lets through under some answer of DNS. -/
def admissible (urls : Urls) (text : String) : Bool :=
  match urls.parse text with
  | none => false
  | some url => decide (url.scheme = "http" ∨ url.scheme = "https") && match url.host with
    | none => false
    | some (.ipv4 ip) => isPublicIpv4 ip
    | some (.ipv6 ip) => isPublicIpv6 ip
    | some (.domain name) => !isIntranetName name

/-- DNS gives one answer for a name, whenever it is asked. -/
def Env.Steady (env : Env) : Prop := ∀ name t t', env.dns t name = env.dns t' name

/-- No server redirects. -/
def Env.Direct (env : Env) (urls : Urls) : Prop :=
  ∀ t url reply, env.respond t url = .ok reply → redirectTarget urls url reply = none

section

variable {urls : Urls} {env : Env} {text : String} {url : Url} {host : Host} {t : Trace}

theorem Contained.append {more : Trace} (first : Contained t) (second : Contained more) : Contained (t ++ more) := by
  intro ip member
  rcases List.mem_append.mp member with here | there
  · exact first ip here
  · exact second ip there

theorem contained_connects {ips : List IpAddr} :
    Contained (ips.map .connect) ↔ ∀ ip ∈ ips, ip.isPublic = true := by
  simp [Contained]

theorem contained_asked (name : String) : Contained [.asked name] := by simp [Contained]

/-- The check asks DNS only for an admissible URL, and connects to nothing. -/
theorem isSafeUrl_cases : ((isSafeUrl urls env text t).2 = t ∨ ∃ name, (isSafeUrl urls env text t).2 = t ++ [.asked name]) ∧
    ((isSafeUrl urls env text t).1 = true → admissible urls text = true) := by
  unfold isSafeUrl admissible
  cases urls.parse text with
  | none => simp
  | some url =>
    dsimp only
    split
    · rename_i web
      rcases url.host with _ | ip | ip | name
      · simp
      · simp [web]
      · simp [web]
      · cases intranet : isIntranetName name with
        | true => simp [intranet]
        | false => cases answer : env.dns t name <;> simp [web,intranet,lookupHost,answer]
    · simp

/-- What the check accepted, a DNS that does not change its answer resolves to public addresses. -/
theorem isSafeUrl_resolve (steady : env.Steady) (safe : (isSafeUrl urls env text t).1 = true)
    (parsed : urls.parse text = some url) (hosted : url.host = some host) (t' : Trace) :
    ∀ ip ∈ (resolve env host t').1, ip.isPublic = true := by
  unfold isSafeUrl at safe
  rw [parsed] at safe
  dsimp only at safe
  split at safe
  · rw [hosted] at safe
    cases host with
    | ipv4 ip => simpa [resolve,IpAddr.isPublic] using safe
    | ipv6 ip => simpa [resolve,IpAddr.isPublic] using safe
    | domain name =>
      cases intranet : isIntranetName name with
      | true => simp [intranet] at safe
      | false =>
        cases answer : env.dns t name with
        | none => simp [intranet,lookupHost,answer] at safe
        | some ips =>
          simp [intranet,lookupHost,answer] at safe
          simpa [resolve,steady name t' t,answer] using safe.2
  · cases safe

theorem hop_direct (direct : env.Direct urls) (follow : Url → Trace → Except String Reply × Trace) :
    (hop urls env follow url t).2 = t ∨ ∃ host, ∃ ips : List IpAddr, url.host = some host ∧ (∀ ip ∈ ips, ip ∈ (resolve env host t).1) ∧
      (hop urls env follow url t).2 = (resolve env host t).2 ++ ips.map .connect := by
  unfold hop
  split
  · cases hosted : url.host with
    | none => exact .inl rfl
    | some host =>
      right
      dsimp only
      split
      · exact ⟨host, [], rfl, by simp, by simp⟩
      · refine ⟨host, tried env (resolve env host t).1 (resolve env host t).2, rfl, ?_, ?_⟩
        · intro ip member
          simpa using (List.mem_filter.mp member).2
        · cases answer : env.respond _ url with
          | error e => rfl
          | ok reply =>
            dsimp only
            rw [direct _ url reply answer]
  · exact .inl rfl

theorem resolve_contained (first : Contained t) : Contained (resolve env host t).2 := by
  cases host with
  | domain name => exact first.append (contained_asked name)
  | _ => exact first

theorem send_contained (direct : env.Direct urls) (n : Nat) (first : Contained t)
    (vetted : ∀ host, url.host = some host → ∀ t, ∀ ip ∈ (resolve env host t).1, ip.isPublic = true) :
    Contained (send urls env n url t).2 := by
  have hopped (follow : Url → Trace → Except String Reply × Trace) : Contained (hop urls env follow url t).2 := by
    rcases @hop_direct _ _ url t direct follow with same | ⟨host, ips, hosted, among, ends⟩
    · rw [same]
      exact first
    · rw [ends]
      exact (resolve_contained first).append (contained_connects.mpr fun ip member => vetted host hosted t ip (among ip member))
  cases n <;> exact hopped _

theorem attempts_contained (direct : env.Direct urls) (first : Contained t)
    (vetted : ∀ url host, urls.parse text = some url → url.host = some host →
      ∀ t, ∀ ip ∈ (resolve env host t).1, ip.isPublic = true) (rest : List Nat) :
    Contained (attempts urls env text rest t).2 := by
  have one {t : Trace} (first : Contained t) : Contained (downloadWithTimeout urls env text t).2 := by
    unfold downloadWithTimeout
    cases parsed : urls.parse text with
    | none => exact first
    | some url =>
      have sent := send_contained direct 10 first (fun host hosted => vetted url host parsed hosted)
      dsimp only
      split
      · rename_i run
        rwa [run] at sent
      · rename_i run
        rw [run] at sent
        split <;> exact sent
  induction rest generalizing t with
  | nil => exact first
  | cons attempt rest ih =>
    have here := one first
    unfold attempts
    split
    · rename_i run
      rwa [run] at here
    · rename_i run
      rw [run] at here
      split
      · exact ih (here.append (by simp [Contained]))
      · exact here

theorem isSafeUrl_contained : Contained (isSafeUrl urls env text []).2 := by
  rcases isSafeUrl_cases.1 with same | ⟨name, asked⟩
  · rw [same]
    simp [Contained]
  · rw [asked]
    exact contained_asked name

/-- A DNS that keeps its answer and servers that do not redirect leave nothing unchecked. -/
theorem downloadWithRetry_contained (steady : env.Steady) (direct : env.Direct urls) :
    Contained (downloadWithRetry urls env text).2 := by
  have checked : Contained (isSafeUrl urls env text []).2 := isSafeUrl_contained
  unfold downloadWithRetry
  split
  · rename_i run
    rwa [run] at checked
  · rename_i run
    rw [run] at checked
    refine attempts_contained direct checked ?_ [0, 1, 2]
    intro url host parsed hosted t
    exact isSafeUrl_resolve steady (by rw [run]) parsed hosted t

theorem downloadWithRetry_refused (refused : admissible urls text = false) :
    Contained (downloadWithRetry urls env text).2 := by
  have checked : Contained (isSafeUrl urls env text []).2 := isSafeUrl_contained
  have admits := (@isSafeUrl_cases urls env text []).2
  unfold downloadWithRetry
  split
  · rename_i run
    rwa [run] at checked
  · rename_i run
    rw [run,refused] at admits
    cases admits rfl

theorem hop_prefix {follow : Url → Trace → Except String Reply × Trace} (later : ∀ url t, t <+: (follow url t).2) :
    t <+: (hop urls env follow url t).2 := by
  unfold hop
  split
  · cases url.host with
    | none => exact List.prefix_rfl
    | some host =>
      have asked : t <+: (resolve env host t).2 := by cases host <;> simp [resolve]
      dsimp only
      split
      · exact asked
      · have connected := asked.trans (List.prefix_append _
          ((tried env (resolve env host t).1 (resolve env host t).2).map .connect))
        split
        · exact connected
        · split
          · exact connected
          · exact connected.trans (later _ _)
  · exact List.prefix_rfl

theorem send_starts (n : Nat) : t <+: (send urls env n url t).2 := by
  induction n generalizing url t with
  | zero => exact hop_prefix (fun _ _ => List.prefix_rfl)
  | succ n ih => exact hop_prefix (fun _ _ => ih)

theorem downloadWithTimeout_trace (parsed : urls.parse text = some url) :
    (downloadWithTimeout urls env text t).2 = (send urls env 10 url t).2 := by
  unfold downloadWithTimeout
  rw [parsed]
  dsimp only
  split
  · rename_i run
    rw [run]
  · rename_i run
    rw [run]
    split <;> rfl

theorem attempts_starts (parsed : urls.parse text = some url) (rest : List Nat) :
    t <+: (attempts urls env text rest t).2 := by
  have one (t : Trace) : t <+: (downloadWithTimeout urls env text t).2 := by
    rw [downloadWithTimeout_trace parsed]
    exact send_starts 10
  induction rest generalizing t with
  | nil => exact List.prefix_rfl
  | cons attempt rest ih =>
    have here := one t
    unfold attempts
    split
    · rename_i run
      rwa [run] at here
    · rename_i run
      rw [run] at here
      split
      · exact here.trans ((List.prefix_append _ _).trans ih)
      · exact here

/-- What the first attempt connects to, the call connects to. -/
theorem attempts_first (parsed : urls.parse text = some url) (attempt : Nat) (rest : List Nat) :
    (send urls env 10 url t).2 <+: (attempts urls env text (attempt :: rest) t).2 := by
  rw [← downloadWithTimeout_trace parsed,attempts]
  split
  · rename_i run
    rw [run]
  · rename_i run
    rw [run]
    split
    · exact (List.prefix_append _ _).trans (attempts_starts parsed rest)
    · exact List.prefix_rfl

def loopback : Ipv4Addr := ⟨127, 0, 0, 1⟩

def loopbackUrl : Url := ⟨"http", some (.ipv4 loopback), none, "/"⟩

/-- Every server redirects to loopback. -/
def attacker : Env where
  dns _ _ := some [.v4 ⟨8, 8, 8, 8⟩]
  tries _ ips := ips
  respond _ _ := .ok ⟨302, "302 Found", some "http://127.0.0.1/", .ok []⟩
  explain _ := "error sending request"

theorem tried_attacker (ips : List IpAddr) : tried attacker ips t = ips := by simp [tried,attacker]

theorem hop_attacker (joins : ∀ base, urls.join base "http://127.0.0.1/" = some loopbackUrl)
    (follow : Url → Trace → Except String Reply × Trace) (web : url.scheme = "http" ∨ url.scheme = "https")
    (hosted : url.host = some host) (some_ : (resolve attacker host t).1 ≠ []) :
    hop urls attacker follow url t =
      follow loopbackUrl ((resolve attacker host t).2 ++ (resolve attacker host t).1.map .connect) := by
  have target : redirectTarget urls url ⟨302, "302 Found", some "http://127.0.0.1/", .ok []⟩ = some loopbackUrl := by
    simp [redirectTarget,joins]
  rw [hop,if_pos web,hosted]
  dsimp only
  rw [tried_attacker,if_neg some_]
  simp only [attacker,target]

theorem send_attacker (joins : ∀ base, urls.join base "http://127.0.0.1/" = some loopbackUrl)
    (n : Nat) (web : url.scheme = "http" ∨ url.scheme = "https") (hosted : url.host = some host) :
    .connect (.v4 loopback) ∈ (send urls attacker (n + 2) url t).2 := by
  have reached : ∀ t, Event.connect (.v4 loopback) ∈ t → .connect (.v4 loopback) ∈ (send urls attacker n loopbackUrl t).2 :=
    fun t member => (send_starts n).subset member
  have literal : ∀ t, .connect (.v4 loopback) ∈ (send urls attacker (n + 1) loopbackUrl t).2 := by
    intro t
    rw [send,hop_attacker joins _ (.inl rfl) rfl (by simp [resolve])]
    exact reached _ (by simp [resolve])
  have some_ : (resolve attacker host t).1 ≠ [] := by cases host <;> simp [resolve,attacker]
  rw [send,hop_attacker joins _ web hosted some_]
  exact literal _

theorem admissible_web (admitted : admissible urls text = true) :
    ∃ url host, urls.parse text = some url ∧ (url.scheme = "http" ∨ url.scheme = "https") ∧ url.host = some host ∧
      ∀ t, (isSafeUrl urls attacker text t).1 = true := by
  unfold admissible at admitted
  cases parsed : urls.parse text with
  | none => simp [parsed] at admitted
  | some url =>
    rw [parsed] at admitted
    obtain ⟨web, fine⟩ := Bool.and_eq_true_iff.mp admitted
    have web := of_decide_eq_true web
    cases hosted : url.host with
    | none => simp [hosted] at fine
    | some host =>
      refine ⟨url, host, rfl, web, hosted, ?_⟩
      intro t
      have public_ : IpAddr.isPublic (.v4 ⟨8, 8, 8, 8⟩) = true := by decide
      rw [isSafeUrl,parsed]
      dsimp only
      rw [if_pos web,hosted]
      rw [hosted] at fine
      cases host with
      | ipv4 ip => exact fine
      | ipv6 ip => exact fine
      | domain name =>
        have open_ : isIntranetName name = false := by simpa using fine
        simp [open_,lookupHost,attacker,public_]

theorem downloadWithRetry_attacker (joins : ∀ base, urls.join base "http://127.0.0.1/" = some loopbackUrl)
    (admitted : admissible urls text = true) : ¬ Contained (downloadWithRetry urls attacker text).2 := by
  obtain ⟨url, host, parsed, web, hosted, safe⟩ := admissible_web admitted
  intro contained
  have reached : .connect (.v4 loopback) ∈ (downloadWithRetry urls attacker text).2 := by
    unfold downloadWithRetry
    split
    · rename_i run
      have := safe []
      rw [run] at this
      cases this
    · exact (attempts_first parsed 0 [1, 2]).subset (send_attacker joins 8 web hosted)
  exact absurd (contained _ reached) (by decide)

/-- Whatever DNS and the servers do, a download stays on public hosts: so it is exactly for the
URLs that are never fetched. With a DNS that keeps its answers and no redirects it is for all,
and an embedded IPv4 address is classified as itself. -/
theorem downloads_public (joins : ∀ base, urls.join base "http://127.0.0.1/" = some loopbackUrl) (text : String) :
    ((∀ env, Contained (downloadWithRetry urls env text).2) ↔ admissible urls text = false) ∧
    (∀ env : Env, env.Steady → env.Direct urls → Contained (downloadWithRetry urls env text).2) ∧
    ∀ v4 ip, Embeds v4 ip → isPublicIpv6 ip = true → isPublicIpv4 v4 = true := by
  refine ⟨⟨?_, ?_⟩, ?_, ?_⟩
  · intro contained
    by_contra admitted
    exact downloadWithRetry_attacker joins (by simpa using admitted) (contained attacker)
  · exact fun refused env => downloadWithRetry_refused refused
  · exact fun env steady direct => downloadWithRetry_contained steady direct
  · exact fun v4 ip embeds accepted => embeds.isPublic accepted

end

/-- The library on the URLs of the example. -/
def sampleUrls : Urls where
  parse text := if text = "http://media.example/a.png" then some ⟨"http", some (.domain "media.example"), none, "/a.png"⟩ else none
  join _ text := if text = "http://127.0.0.1/" then some loopbackUrl else none

theorem sample_public :
    ((∀ env, Contained (downloadWithRetry sampleUrls env "http://media.example/a.png").2) ↔
      admissible sampleUrls "http://media.example/a.png" = false) ∧
    (∀ env : Env, env.Steady → env.Direct sampleUrls →
      Contained (downloadWithRetry sampleUrls env "http://media.example/a.png").2) ∧
    ∀ v4 ip, Embeds v4 ip → isPublicIpv6 ip = true → isPublicIpv4 v4 = true :=
  downloads_public (fun _ => rfl) "http://media.example/a.png"

/-- The name turns into loopback after the check; nobody redirects. -/
def rebinder : Env where
  dns t _ := some (if t = [] then [.v4 ⟨8, 8, 8, 8⟩] else [.v4 loopback])
  tries _ ips := ips
  respond _ _ := .ok ⟨200, "200 OK", none, .ok []⟩
  explain _ := "error sending request"

/-- Either way a download from a public name ends at loopback. -/
theorem download_escapes :
    ¬ Contained (downloadWithRetry sampleUrls attacker "http://media.example/a.png").2 ∧
    ¬ Contained (downloadWithRetry sampleUrls rebinder "http://media.example/a.png").2 := by
  have escapes {t : Trace} (reached : .connect (.v4 loopback) ∈ t) : ¬ Contained t :=
    fun contained => absurd (contained _ reached) (by decide)
  exact ⟨escapes (by decide +kernel), escapes (by decide +kernel)⟩

end Zaion.Media
