/-
# Clusters behind a page of links

A page on the web lists files. Those of its links that pass a pattern and are plain names
of files are downloaded in byte order into a fresh directory, which is then read as any
directory is. The first request that fails ends it: no file may be missing.

`Listing.clusters` also tells which addresses have been asked for, in order: those that the client
was given. An answer is the one that it came back with, after all redirects.
-/

import ClusterSync.Source.Export
import ClusterSync.Source.Links
import ClusterSync.Web

namespace ClusterSync

open Files (Place)

/-- A page of links, and which of them are wanted. -/
structure Listing where
  /-- The name of the source, for what goes wrong. -/
  name : String
  url : String
  wanted : Pattern

namespace Listing

/-- The address of a file that the page at an address lists. -/
def fileUrl (page file : String) : String :=
  if page.endsWith "/" then page ++ file else page ++ "/" ++ file

/-- Is a link the plain name of a file, so that nothing is written elsewhere? -/
def isPlain (link : String) : Bool :=
  !link.isEmpty && link != "." && link != ".." &&
    !link.toList.contains '/' && !link.toList.contains '\\'

/-- The body that the client brings when it is given an address, if the request succeeds. -/
def fetch (l : Listing) (web : Web) (url : String) : Except Failure ByteArray :=
  match web url with
  | .error reason => .error (.source l.name s!"GET {url} failed: {reason}")
  | .ok response =>
    if !response.isSuccess then
      .error (.source l.name s!"Got {response.status} response code from {url}")
    else if !response.complete then
      .error (.source l.name s!"reading {url} failed: the body breaks off")
    else .ok response.body

/-- The files that a page lists. -/
def files (l : Listing) (page : ByteArray) : List String :=
  (Links.ofPage l.wanted.isIn (Text.ofBytesLossy page)).filter isPlain

/-- Downloads files in turn into a directory, up to the first that fails, and tells which
addresses the client has been given. -/
def download (l : Listing) (web : Web) (dir : Place) :
    FileTree → List String → Except Failure FileTree × List String
  | tree, [] => (.ok tree, [])
  | tree, file :: rest =>
    let url := fileUrl l.url file
    match l.fetch web url with
    | .error e => (.error e, [url])
    | .ok body =>
      match tree.write dir file body with
      | .error e => (.error (.io e), [url])
      | .ok tree =>
        let (result, asked) := download l web dir tree rest
        (result, url :: asked)

/-- The clusters in the files that the page lists, and the addresses that the client has been
given. The files are put below the path `scratch`. -/
def clusters (l : Listing) (web : Web) (scratch : String) (tree : FileTree) :
    Except Failure ClusterSet × List String :=
  match l.fetch web l.url with
  | .error e => (.error e, [l.url])
  | .ok page =>
    let dir := Files.placeOf scratch
    match l.download web dir (tree.mount dir .empty) (l.files page) with
    | (.error e, asked) => (.error e, l.url :: asked)
    | (.ok tree, asked) =>
      ((tree.readClusters scratch).mapError (·.relabelled l.name), l.url :: asked)

end Listing

/-- The source that reads the files that a page lists. -/
def Source.listing (l : Listing) (web : Web) (scratch : String) : Source where
  name := l.name
  read tree := (l.clusters web scratch tree).1

end ClusterSync
