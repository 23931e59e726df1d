import AwsMock.Ftp.Effects
import AwsMock.Lib.Machine

/-!
# Confinement to the home directory

The working directory of a session is always an absolute path, so a relative path is cleaned to one that
does not climb. An absolute path is put behind the home directory as it is: what it climbs above its
start, it climbs out of the home directory.
-/

namespace AwsMock.Ftp

open Lib

variable {cfg : Config} {s t : FtpSession} {param : Str}

/-! ### The working directory -/

/-- The working directory is absolute, and the users have home directories. -/
structure Rooted (s : FtpSession) : Prop where
  directory : isAbsolute s.ftpWorkingDirectory = true
  homes : s.userDatabase.Every fun user => user.localRootPath ≠ []
  home : ∀ user, s.loggedInUser = some user → user.localRootPath ≠ []

theorem isAbsolute_cleanPathNative {path : Str} (h : isAbsolute path = true) :
    isAbsolute (cleanPathNative path) = true := by
  obtain ⟨rest, rfl⟩ := isAbsolute_iff.mp h
  rw [cleanPathNative_absolute]
  rfl

theorem Rooted.changes (hs : Rooted s) (h : Changes s param t) : Rooted t where
  directory := by
    rcases h.directory with hsame | hroot | ⟨path, hpath, hclean⟩
    · rw [hsame]
      exact hs.directory
    · rw [hroot]
      decide
    · rw [hclean]
      rcases hpath with habsolute | ⟨rest, rfl⟩
      · exact isAbsolute_cleanPathNative habsolute
      · obtain ⟨dir, hdir⟩ := isAbsolute_iff.mp hs.directory
        rw [hdir]
        exact isAbsolute_cleanPathNative rfl
  homes := by
    rw [h.userDatabase]
    exact hs.homes
  home user huser := by
    rcases h.user with hsame | hnone | ⟨name, password, found, hget, hfound⟩
    · exact hs.home user (hsame ▸ huser)
    · rw [hnone] at huser
      cases huser
    · rw [hfound] at huser
      cases huser
      exact hs.homes name password _ hget

variable {e : FtpEvent} {p q : FtpProcess}

theorem Rooted.step (hp : Rooted p.session) (h : FtpProcess.step cfg e p = some q) : Rooted q.session := by
  rcases step_session h with ⟨line, host, -, rfl⟩ | ⟨-, rfl⟩ | ⟨i, file, -, -, rfl⟩ | ⟨i, file, -, -, rfl⟩ |
    ⟨i, host, file, -, -, rfl⟩
  · exact hp.changes (effect_handleFtpCommand cfg host p.session line).changes
  · exact ⟨hp.directory, hp.homes, hp.home⟩
  · exact ⟨hp.directory, hp.homes, hp.home⟩
  · exact ⟨hp.directory, hp.homes, hp.home⟩
  · rw [endDataReceiving_session]
    exact ⟨hp.directory, hp.homes, hp.home⟩

theorem rooted_startSession (baseDir : Str) (users : List Transfer.User) :
    Rooted (startSession (addUsers baseDir users)).session :=
  ⟨rfl, every_addUsers baseDir users, nofun⟩

/-! ### Confinement -/

/-- The path leads to the directory or below it, whatever the current directory of the process is. -/
def Inside (cwd : List Str) (dir path : Str) : Prop := locate cwd dir <:+ locate cwd path

/-- An absolute path that climbs above its start enters again the directories of `home` that it climbs out
    of. -/
def ClimbsBack (home : List Str) (ftpPath : Str) : Prop :=
  isAbsolute ftpPath = true →
    home.take (climb (moves ftpPath)).ups <:+ (climb (moves ftpPath)).names

/-- The local path is located from the home directory. -/
theorem locate_toLocalPath (cwd : List Str) (s : FtpSession) {user : FtpUser}
    (hhome : user.localRootPath ≠ []) (ftpPath : Str) :
    locate cwd (s.toLocalPath user ftpPath) =
      walk (moves (s.toAbsoluteFtpPath ftpPath)) (locate cwd user.localRootPath) := by
  have hbelow := locate_below cwd hhome (s.toAbsoluteFtpPath ftpPath)
  rw [FtpSession.toLocalPath, locate_cleanPathNative, ← hbelow, List.append_assoc]
  rfl

/-- From every state a session can reach, the local path of an argument is inside the home directory
    exactly when the argument is relative or climbs back into what it climbs out of. -/
theorem path_confinement (cfg : Config) (baseDir : Str) (users : List Transfer.User)
    (events : List FtpEvent) (p : FtpProcess)
    (hp : steps (FtpProcess.step cfg) events (startSession (addUsers baseDir users)) = some p)
    (user : FtpUser) (huser : p.session.loggedInUser = some user) (cwd : List Str) (ftpPath : Str) :
    Inside cwd user.localRootPath (p.session.toLocalPath user ftpPath) ↔
      ClimbsBack (locate cwd user.localRootPath) ftpPath := by
  have hrooted := steps_inv (I := fun p => Rooted p.session) (fun h hi => hi.step h) hp
    (rooted_startSession baseDir users)
  rw [Inside, locate_toLocalPath cwd p.session (hrooted.home user huser), start_suffix_walk_iff]
  rcases habsolute : isAbsolute ftpPath with _ | _
  · -- a relative path is cleaned
    have hhead : ftpPath.head? ≠ some slash := by simpa [isAbsolute] using habsolute
    have hzero : (climb (moves (p.session.toAbsoluteFtpPath ftpPath))).ups = 0 := by
      rw [FtpSession.toAbsoluteFtpPath, if_neg hhead]
      obtain ⟨dir, hdir⟩ := isAbsolute_iff.mp hrooted.directory
      exact climb_cleanPathNative (by rw [hdir]; rfl)
    simp [hzero, ClimbsBack, habsolute]
  · have hhead : ftpPath.head? = some slash := by simpa [isAbsolute] using habsolute
    rw [FtpSession.toAbsoluteFtpPath, if_pos hhead]
    simp [ClimbsBack, habsolute]

/-- Logging in and entering a directory. -/
def logIn : List FtpEvent :=
  [.command (str "USER anonymous") .willing, .command (str "PASS 123") .willing,
   .command (str "CWD docs") .willing]

/-- A relative argument with as many `..` as one likes. -/
theorem path_confinement_docs : ∃ p user,
    steps (FtpProcess.step .sample) logIn (startSession (addUsers (str "/data") [anonymous])) = some p ∧
    p.session.loggedInUser = some user ∧ p.session.ftpWorkingDirectory = str "/docs" ∧
    Inside [] user.localRootPath (p.session.toLocalPath user (str "../../../x")) := by
  refine ⟨_, _, rfl, rfl, by decide +kernel, ?_⟩
  refine (path_confinement .sample (str "/data") [anonymous] logIn _ rfl _ rfl [] _).mpr ?_
  intro habsolute
  exact absurd habsolute (by decide +kernel)

/-- An absolute argument leaves the home directory. -/
theorem path_confinement_escape : ∃ p user,
    steps (FtpProcess.step .sample) logIn (startSession (addUsers (str "/data") [anonymous])) = some p ∧
    p.session.loggedInUser = some user ∧ user.localRootPath = str "/data//u" ∧
    p.session.toLocalPath user (str "/../../etc/passwd") = str "/etc/passwd" ∧
    ¬ Inside [] user.localRootPath (p.session.toLocalPath user (str "/../../etc/passwd")) := by
  refine ⟨_, _, rfl, rfl, by decide +kernel, by decide +kernel, ?_⟩
  unfold Inside
  decide +kernel

end AwsMock.Ftp
