import NavCaster.Library.Path

namespace NavCaster.Http.StaticFiles

open NavCaster.Library.Path

/-- What the server finds: its root, the directory it was started in, the files, and how it decodes
a path, where `none` is a failure. A file that cannot be opened has no contents. -/
structure Server where
  webRoot : PathText
  cwd : List PathText
  isDirectory : PathText → Bool
  isRegularFile : PathText → Bool
  contents : PathText → Option (List UInt8)
  uridecode : PathText → Option PathText

structure Reply where
  file : PathText
  contentType : String
  cacheControl : Option String
  body : List UInt8

def indexHtml : PathText := [105, 110, 100, 101, 120, 46, 104, 116, 109, 108]

def apiPrefix : PathText := [47, 97, 112, 105]

/-- The part of the file name from its last point, which must not be its only first letter. -/
def extension (p : PathText) : String :=
  let name := (p.splitOn 47).getLast (List.splitOn_ne_nil 47 p)
  let tail := name.reverse.takeWhile (· ≠ 46)
  if name = dotdot ∨ name.length ≤ tail.length + 1 then ""
  else String.ofList ((46 :: tail.reverse).map fun b ↦ Char.ofNat b.toNat)

def mimeTypes : List (String × String) :=
  [(".html", "text/html; charset=utf-8"),
    (".css", "text/css; charset=utf-8"),
    (".js", "application/javascript; charset=utf-8"),
    (".json", "application/json; charset=utf-8"),
    (".png", "image/png"),
    (".jpg", "image/jpeg"),
    (".jpeg", "image/jpeg"),
    (".gif", "image/gif"),
    (".svg", "image/svg+xml"),
    (".ico", "image/x-icon"),
    (".woff", "font/woff"),
    (".woff2", "font/woff2"),
    (".ttf", "font/ttf"),
    (".txt", "text/plain; charset=utf-8"),
    (".map", "application/json")]

def getMimeType (ext : String) : String := (mimeTypes.lookup ext).getD "application/octet-stream"

def cacheControl (ext : String) : Option String :=
  if ext = ".html" then some "no-cache"
  else if ext ∈ [".js", ".css", ".woff2", ".woff", ".ttf"] then
    some "public, max-age=31536000, immutable"
  else none

namespace Server

variable (srv : Server)

def orIndex (file : PathText) : PathText :=
  if srv.isDirectory file then join file indexHtml else file

def sendFile (file : PathText) : Option Reply :=
  (srv.contents file).map fun body ↦
    { file, contentType := getMimeType (extension file),
      cacheControl := cacheControl (extension file), body }

/-- The single page that stands for every path that is not found. -/
def fallback (urlPath : PathText) : Option Reply :=
  let index := join srv.webRoot indexHtml
  if urlPath.take 4 ≠ apiPrefix ∧ srv.isRegularFile index then
    (srv.contents index).map fun body ↦
      { file := index, contentType := "text/html; charset=utf-8", cacheControl := some "no-cache",
        body }
  else none

def decoded (urlPath : PathText) : PathText := (srv.uridecode urlPath).getD urlPath

def relative (decodedPath : PathText) : PathText :=
  match decodedPath with
  | 47 :: rest => rest
  | p => p

def serveStaticFile (urlPath : PathText) : Option Reply :=
  let decodedPath := srv.decoded urlPath
  if dotdot <:+: decodedPath then none
  else
    let file := srv.orIndex (join srv.webRoot (relative decodedPath))
    if srv.isRegularFile file then srv.sendFile file else srv.fallback urlPath

/-- A path that is still absolute without its first slash names no file that can be sent, or one
that is below the root. -/
def Confined (urlPath : PathText) : Prop :=
  let rest := relative (srv.decoded urlPath)
  ¬ dotdot <:+: srv.decoded urlPath → isAbsolute rest → srv.isRegularFile (srv.orIndex rest) →
    (srv.contents (srv.orIndex rest)).isSome → Under srv.cwd srv.webRoot (srv.orIndex rest)

end Server

variable {srv : Server} {urlPath : PathText}

theorem under_index (cwd : List PathText) {root p : PathText} (h : Under cwd root p) :
    Under cwd root (join p indexHtml) := h.join rfl (by decide)

theorem under_fallback {r : Reply} (h : srv.fallback urlPath = some r) :
    Under srv.cwd srv.webRoot r.file := by
  unfold Server.fallback at h
  dsimp only at h
  split at h
  · obtain ⟨_, _, rfl⟩ := Option.map_eq_some_iff.mp h
    exact under_index srv.cwd (List.prefix_refl _)
  · cases h

theorem relative_suffix (p : PathText) : Server.relative p <:+ p := by
  unfold Server.relative
  split
  · exact List.suffix_cons _ _
  · exact List.suffix_refl _

theorem under_orIndex (hd : ¬ dotdot <:+: srv.decoded urlPath)
    (ha : isAbsolute (Server.relative (srv.decoded urlPath)) = false) :
    Under srv.cwd srv.webRoot
      (srv.orIndex (join srv.webRoot (Server.relative (srv.decoded urlPath)))) := by
  have hd' : dotdot ∉ components (Server.relative (srv.decoded urlPath)) :=
    dotdot_not_mem fun h ↦ hd (h.trans (relative_suffix _).isInfix)
  have hu := under_join srv.cwd srv.webRoot ha hd'
  unfold Server.orIndex
  split
  · exact under_index srv.cwd hu
  · exact hu

/-- What is sent lies below the root if and only if the path is confined: two slashes at its start,
after decoding, name a file anywhere. -/
theorem static_files (srv : Server) (urlPath : PathText) :
    (∀ r, srv.serveStaticFile urlPath = some r → Under srv.cwd srv.webRoot r.file) ↔
      srv.Confined urlPath := by
  unfold Server.serveStaticFile Server.Confined
  dsimp only
  by_cases hd : dotdot <:+: srv.decoded urlPath
  · rw [if_pos hd]
    exact iff_of_true (fun _ h ↦ by cases h) fun h ↦ absurd hd h
  · rw [if_neg hd]
    cases ha : isAbsolute (Server.relative (srv.decoded urlPath)) with
    | false =>
      refine iff_of_true (fun r hr ↦ ?_) fun _ h ↦ by cases h
      split at hr
      · obtain ⟨_, _, rfl⟩ := Option.map_eq_some_iff.mp hr
        exact under_orIndex hd ha
      · exact under_fallback hr
    | true =>
      have hjoin : join srv.webRoot (Server.relative (srv.decoded urlPath)) =
          Server.relative (srv.decoded urlPath) := if_pos ha
      rw [hjoin]
      constructor
      · intro h _ _ hreg hopen
        obtain ⟨body, hbody⟩ := Option.isSome_iff_exists.mp hopen
        have hsend : srv.sendFile (srv.orIndex (Server.relative (srv.decoded urlPath))) =
            some ⟨_, _, _, body⟩ := Option.map_eq_some_iff.mpr ⟨body, hbody, rfl⟩
        exact h _ (by rw [if_pos hreg]; exact hsend)
      · intro h r hr
        split at hr
        · next hreg =>
          obtain ⟨_, hbody, rfl⟩ := Option.map_eq_some_iff.mp hr
          exact h hd rfl hreg (by rw [hbody]; rfl)
        · exact under_fallback hr

def hexDigit (b : UInt8) : Option UInt8 :=
  if 48 ≤ b ∧ b ≤ 57 then some (b - 48)
  else if 65 ≤ b ∧ b ≤ 70 then some (b - 55)
  else if 97 ≤ b ∧ b ≤ 102 then some (b - 87)
  else none

def percentDecode : PathText → PathText
  | 37 :: h :: l :: s =>
    match hexDigit h, hexDigit l with
    | some h, some l => (h * 16 + l) :: percentDecode s
    | _, _ => 37 :: percentDecode (h :: l :: s)
  | b :: s => b :: percentDecode s
  | [] => []

def srvRoot : PathText := [47, 115, 114, 118]

def secret : PathText := [47, 107, 101, 121]

def exposed : Server where
  webRoot := srvRoot
  cwd := []
  isDirectory p := p = srvRoot
  isRegularFile p := p = secret
  contents p := if p = secret then some [] else none
  uridecode p := some (percentDecode p)

/-- The path `/%2Fkey`. -/
theorem not_static_files :
    ¬ ∀ (srv : Server) (urlPath : PathText), ¬ apiPrefix ++ [47] <+: urlPath →
    ∀ r, srv.serveStaticFile urlPath = some r → Under srv.cwd srv.webRoot r.file := by
  intro h
  have hr := h exposed [47, 37, 50, 70, 107, 101, 121] (by decide) ⟨secret, _, _, _⟩ (by rfl)
  exact absurd hr (by decide)

end NavCaster.Http.StaticFiles
